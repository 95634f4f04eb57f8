import Counterpart.Proofs.Editor.Run
import Counterpart.Proofs.Settings

/-! The settings an editor goes by: those that were stored when it last learnt of a change. -/

namespace Counterpart

namespace Editor

def Step.announced? : Step → Option Settings.Source
  | .configure source concerned => if concerned = programName then some source else none
  | _ => none

structure Alike (editor other : Editor) : Prop where
  text : editor.text = other.text
  language : editor.language = other.language
  selection : editor.selection = other.selection
  settings : editor.settings = other.settings

structure GoesBy (editor : Editor) (source : Settings.Source) (changes : Nat) : Prop where
  settings : editor.settings = (Settings.read source).1
  status : editor.status = statusText (Settings.read source).1
  shown : editor.shown = changes + 1

variable {editor other : Editor}

namespace Alike

variable (alike : editor.Alike other)
include alike

lemma runAct_eq {α : Type} (act : Scene → List Rule → Act α) : editor.runAct act = other.runAct act := by
  simp only [runAct, rules, alike.text, alike.language, alike.selection, alike.settings]

lemma reveal (selection : Selection) :
    (editor.reveal selection).2 = (other.reveal selection).2 ∧
      (editor.reveal selection).1.Alike (other.reveal selection).1 := by
  refine ⟨rfl, alike.text, alike.language, ?_, alike.settings⟩
  simp only [Editor.reveal, alike.text]

lemma revealJump (destination : Int) :
    (editor.revealJump destination).2 = (other.revealJump destination).2 ∧
      (editor.revealJump destination).1.Alike (other.revealJump destination).1 := by
  rw [Editor.revealJump, Editor.revealJump, alike.selection]
  exact alike.reveal _

lemma erase (region : Region) :
    (editor.erase region).2 = (other.erase region).2 ∧ (editor.erase region).1.Alike (other.erase region).1 := by
  refine ⟨?_, ?_, alike.language, ?_, alike.settings⟩
  all_goals simp only [Editor.erase, alike.text, alike.selection, alike.settings]

lemma conclude {α : Type} (act : Scene → List Rule → Act (Option α))
    {continuation continuation' : α → Editor × Report}
    (continues : ∀ found, (continuation found).2 = (continuation' found).2 ∧
      (continuation found).1.Alike (continuation' found).1) :
    (editor.conclude (editor.runAct act) continuation).2 = (other.conclude (other.runAct act) continuation').2 ∧
      (editor.conclude (editor.runAct act) continuation).1.Alike
        (other.conclude (other.runAct act) continuation').1 := by
  rw [alike.runAct_eq act]
  rcases other.runAct act with ⟨halt | _ | found, journal⟩
  · exact ⟨rfl, alike⟩
  · exact ⟨rfl, alike⟩
  · obtain ⟨reports, continued⟩ := continues found
    refine ⟨?_, continued⟩
    simp only [Editor.conclude, reports]

lemma jumpToPercentage (percent : Number) :
    (editor.jumpToPercentage percent).2 = (other.jumpToPercentage percent).2 ∧
      (editor.jumpToPercentage percent).1.Alike (other.jumpToPercentage percent).1 :=
  alike.conclude _ alike.revealJump

lemma perform (command : Command) (arguments : List Value) (answer : Prompt.Answer) :
    (editor.perform command arguments answer).2 = (other.perform command arguments answer).2 ∧
      (editor.perform command arguments answer).1.Alike (other.perform command arguments answer).1 := by
  cases command with
  | jump => exact alike.conclude _ alike.revealJump
  | select => exact alike.conclude _ fun _ => alike.reveal _
  | selectInner => exact alike.conclude _ fun _ => alike.reveal _
  | delete => exact alike.conclude _ alike.erase
  | deleteInner => exact alike.conclude _ alike.erase
  | jumpToPercentage =>
    rw [Editor.perform, Editor.perform]
    cases Command.count? arguments with
    | some percent => exact alike.jumpToPercentage percent
    | none =>
      cases answer with
      | cancelled => exact ⟨rfl, alike⟩
      | failed message => exact ⟨rfl, alike⟩
      | typed input =>
        obtain ⟨reports, moved⟩ := alike.jumpToPercentage (Prompt.percentage input)
        refine ⟨?_, moved⟩
        simp only [promptForPercentage, reports]
  | showSettings =>
    refine ⟨?_, alike⟩
    simp only [Editor.perform, alike.settings]

end Alike

namespace GoesBy

variable {source : Settings.Source} {changes : Nat}

lemma activate (text : Text) (language : String) (selection : Selection) (source : Settings.Source) :
    (activate text language selection source).1.GoesBy source 0 :=
  ⟨rfl, rfl, rfl⟩

variable (goes : editor.GoesBy source changes)
include goes

lemma conclude {α : Type} (outcome : Except Halt (Option α) × List Entry)
    {continuation : α → Editor × Report}
    (continues : ∀ found, (continuation found).1.GoesBy source changes) :
    (editor.conclude outcome continuation).1.GoesBy source changes := by
  rcases outcome with ⟨halt | _ | found, journal⟩
  · exact goes
  · exact goes
  · exact continues found

lemma perform (command : Command) (arguments : List Value) (answer : Prompt.Answer) :
    (editor.perform command arguments answer).1.GoesBy source changes := by
  have same : ∀ next : Editor, next.settings = editor.settings → next.status = editor.status →
      next.shown = editor.shown → next.GoesBy source changes := by
    rintro next hs ht hn
    exact ⟨hs.trans goes.settings, ht.trans goes.status, hn.trans goes.shown⟩
  have reveals : ∀ selection, (editor.reveal selection).1.GoesBy source changes := fun _ => same _ rfl rfl rfl
  have erases : ∀ region, (editor.erase region).1.GoesBy source changes := fun _ => same _ rfl rfl rfl
  have percentage : ∀ percent, (editor.jumpToPercentage percent).1.GoesBy source changes :=
    fun _ => goes.conclude _ fun _ => reveals _
  cases command with
  | jump => exact goes.conclude _ fun _ => reveals _
  | select => exact goes.conclude _ fun _ => reveals _
  | selectInner => exact goes.conclude _ fun _ => reveals _
  | delete => exact goes.conclude _ erases
  | deleteInner => exact goes.conclude _ erases
  | jumpToPercentage =>
    rw [Editor.perform]
    cases Command.count? arguments with
    | some percent => exact percentage percent
    | none =>
      cases answer with
      | cancelled => exact goes
      | failed message => exact goes
      | typed input => exact percentage _
  | showSettings => exact goes

lemma step (step : Step) :
    (editor.step step).1.GoesBy (step.announced?.getD source) (changes + step.announced?.toList.length) := by
  cases step with
  | select selection => exact ⟨goes.settings, goes.status, goes.shown⟩
  | configure new concerned =>
    rw [Editor.step, changeSettings, Step.announced?]
    split
    · exact ⟨rfl, rfl, congrArg (· + 1) goes.shown⟩
    · exact ⟨goes.settings, goes.status, goes.shown⟩
  | command command arguments answer => exact goes.perform command arguments answer

lemma after (steps : List Step) :
    (editor.after steps).GoesBy ((steps.filterMap Step.announced?).getLastD source)
      (changes + (steps.filterMap Step.announced?).length) := by
  induction steps generalizing editor source changes with
  | nil => exact goes
  | cons step steps ih =>
    have further := ih (goes.step step)
    rw [List.filterMap_cons]
    cases ha : step.announced? with
    | none =>
      rw [ha] at further
      exact further
    | some new =>
      rw [ha] at further
      rw [List.getLastD_cons, List.length_cons, Nat.add_comm _ 1, ← Nat.add_assoc]
      exact further

end GoesBy

/-- At every moment of a run, the editor goes by the values stored when it last learnt of a change to its settings:
they are valid whatever was stored, the status shows them and was shown once for each change, and every command is
answered as in an editor opened with them. -/
theorem settings_are_those_last_announced (text : Text) (language : String) (selection : Selection)
    (source : Settings.Source) (steps : List Step) :
    let editor := (activate text language selection source).1.after steps
    let announced := steps.filterMap Step.announced?
    let current := (Settings.read (announced.getLastD source)).1
    let opened := (activate editor.text editor.language editor.selection (announced.getLastD source)).1
    editor.settings = current ∧ current.Valid ∧ Settings.read current.stored = (current, []) ∧
      editor.status = statusText current ∧ editor.shown = announced.length + 1 ∧
      ∀ command arguments answer,
        (editor.perform command arguments answer).2 = (opened.perform command arguments answer).2 ∧
          (editor.perform command arguments answer).1.Alike (opened.perform command arguments answer).1 := by
  intro editor announced current opened
  have goes := (GoesBy.activate text language selection source).after steps
  rw [Nat.zero_add] at goes
  have valid : current.Valid := Settings.valid_read _
  have alike : editor.Alike opened := ⟨rfl, rfl, rfl, goes.settings⟩
  exact ⟨goes.settings, valid, valid.read_stored, goes.status, goes.shown, alike.perform⟩

end Editor

end Counterpart
