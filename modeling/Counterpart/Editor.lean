import Counterpart.Editor.Command
import Counterpart.Editor.Prompt
import Counterpart.Motion
import Counterpart.Rulebook.Standard
import Counterpart.Selection
import Counterpart.Settings.Reading

/-!
An editor that runs the commands on its text and selection. Each step tells what it showed and reported.
-/

namespace Counterpart

structure Editor where
  text : Text
  language : String
  selection : Selection
  source : Settings.Source
  settings : Settings
  status : String
  shown : Nat

namespace Editor

inductive Event where
  | deleted (start stop : Nat)
  | revealed
  | message (text : String)
  | prompted (question : String)
  | validated (complaint : Option String)
deriving DecidableEq, Repr

structure Report where
  events : List Event := []
  journal : List Entry := []
  halt : Option Halt := none
deriving DecidableEq, Repr

def statusCommand : Command := .showSettings

def subscriptionCount : Nat := Command.all.length + 2

def statusText (settings : Settings) : String :=
  "Items: " ++ settings.shortcut ++ (if settings.percentageJump then " N%" else "") ++
    (if settings.alwaysSimpleJump then " (simple)" else "")

def settingsText (settings : Settings) : String :=
  "Matching Items: `" ++ settings.shortcut ++ "` jumps between items" ++
    (if settings.percentageJump then ", with a count it jumps to that percentage of the file" else "") ++
    (if settings.alwaysSimpleJump then "; only brackets and quotes are matched." else ".")

variable (editor : Editor)

def rules : List Rule := Rulebook.standard.lookup editor.language

def runAct {α : Type} (act : Scene → List Rule → Act α) : Except Halt α × List Entry :=
  let scene := Scene.ofSelection editor.text editor.language editor.selection editor.settings
  let (result, trail) := (act scene editor.rules).run { cursor := editor.selection.cursor editor.text }
  (result, trail.journal)

def adopt (settings : Settings) : Editor :=
  { editor with settings := settings, status := statusText settings, shown := editor.shown + 1 }

def reload : Editor × List Entry :=
  let (settings, complaints) := Settings.read editor.source
  (editor.adopt settings, complaints)

def activate (text : Text) (language : String) (selection : Selection) (source : Settings.Source) :
    Editor × Report :=
  let (editor, complaints) := reload ⟨text, language, selection, source, {}, "", 0⟩
  let greeting := s!"activating with rules for {Rulebook.standard.grammars.length} languages"
  (editor, { journal := complaints ++ Act.debugEntries editor.settings greeting })

def changeSettings (source : Settings.Source) (concerned : String) : Editor × Report :=
  let editor := { editor with source := source }
  if concerned = programName then
    let (editor, complaints) := editor.reload
    (editor, { journal := complaints })
  else (editor, {})

def select (selection : Selection) : Editor := { editor with selection := selection }

def reveal (selection : Selection) : Editor × Report :=
  ({ editor with selection := ⟨editor.text.clamp selection.anchor, editor.text.clamp selection.active⟩ },
    { events := [.revealed] })

def erase (region : Region) : Editor × Report :=
  let start := editor.text.clamp region.start
  let stop := editor.text.clamp region.stop
  ({ editor with
      text := editor.text.erase start stop
      selection := editor.selection.afterErase editor.text start stop },
    { journal := Act.debugEntries editor.settings
        ("deleting [" ++ offsetText region.start ++ ", " ++ offsetText region.stop ++ ")")
      events := [.deleted start stop] })

def conclude {α : Type} (outcome : Except Halt (Option α) × List Entry)
    (continuation : α → Editor × Report) : Editor × Report :=
  match outcome with
  | (.error halt, journal) => (editor, { journal := journal, halt := some halt })
  | (.ok none, journal) => (editor, { journal := journal })
  | (.ok (some found), journal) =>
    let (editor, report) := continuation found
    (editor, { report with journal := journal ++ report.journal })

def revealJump (destination : Int) : Editor × Report :=
  editor.reveal (editor.selection.afterJump (!editor.selection.isEmpty) destination)

def jump (count : Option Number) : Editor × Report :=
  editor.conclude (editor.runAct fun scene rules => Motion.jump scene rules count) editor.revealJump

def selectItem (inner : Bool) (count : Option Number) : Editor × Report :=
  editor.conclude (editor.runAct fun scene rules => Motion.select scene rules count inner) fun region =>
    editor.reveal ⟨region.start, region.stop⟩

def deleteItem (inner : Bool) (count : Option Number) : Editor × Report :=
  editor.conclude (editor.runAct fun scene rules => Motion.delete scene rules count inner) editor.erase

def jumpToPercentage (percent : Number) : Editor × Report :=
  editor.conclude
    (editor.runAct fun scene _ => do return some (← Motion.jumpToPercentage scene percent)) editor.revealJump

def promptForPercentage : Prompt.Answer → Editor × Report
  | .cancelled => (editor, { events := [.prompted Prompt.question] })
  | .failed message =>
    (editor,
      { events := [.prompted Prompt.question]
        journal := [.error (programName ++ ": jump to percentage failed:") message] })
  | .typed input =>
    let (editor, report) := editor.jumpToPercentage (Prompt.percentage input)
    (editor,
      { report with
        events := [.prompted Prompt.question, .validated (Prompt.complaint? input)] ++ report.events })

def perform (command : Command) (arguments : List Value) (answer : Prompt.Answer) : Editor × Report :=
  let count := Command.count? arguments
  match command with
  | .jump => editor.jump count
  | .select => editor.selectItem false count
  | .selectInner => editor.selectItem true count
  | .delete => editor.deleteItem false count
  | .deleteInner => editor.deleteItem true count
  | .jumpToPercentage =>
    match count with
    | some percent => editor.jumpToPercentage percent
    | none => editor.promptForPercentage answer
  | .showSettings => (editor, { events := [.message (settingsText editor.settings)] })

inductive Step where
  | select (selection : Selection)
  | configure (source : Settings.Source) (concerned : String)
  | command (command : Command) (arguments : List Value) (answer : Prompt.Answer)

def step : Step → Editor × Report
  | .select selection => (editor.select selection, {})
  | .configure source concerned => editor.changeSettings source concerned
  | .command command arguments answer => editor.perform command arguments answer

end Editor

end Counterpart
