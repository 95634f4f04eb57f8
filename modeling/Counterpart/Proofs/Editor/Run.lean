import Counterpart.Proofs.Editor.Step

namespace Counterpart

namespace Editor

def after (editor : Editor) (steps : List Step) : Editor :=
  steps.foldl (fun editor step => (editor.step step).1) editor

variable {editor : Editor} {steps : List Step}

lemma after_append (editor : Editor) (steps more : List Step) :
    editor.after (steps ++ more) = (editor.after steps).after more :=
  List.foldl_append

lemma Answers.within {editor : Editor} {step : Step} {outcome : Editor × Report}
    (answers : editor.Answers step outcome)
    (unselected : step.selects = false) (within : editor.selection.Within editor.text) :
    outcome.1.selection.Within outcome.1.text := by
  rcases answers with obeys | sticks
  · exact obeys.within unselected within
  · rwa [sticks.keeps]

lemma within_after (unselected : ∀ step ∈ steps, step.selects = false)
    (within : editor.selection.Within editor.text) :
    (editor.after steps).selection.Within (editor.after steps).text := by
  induction steps generalizing editor with
  | nil => exact within
  | cons step steps ih =>
    obtain ⟨hs, unselected⟩ := List.forall_mem_cons.mp unselected
    exact ih unselected ((answers_step editor step).within hs within)

/-- Over every run, the text changes where a deletion is reported, a move shows the selection unless nothing is
found, and a selection in the text stays there until the next one is made. The one exception is a command that asks
for more jumps than one can count: it may go on without end, and changes nothing. -/
theorem runs_keep_selection_within (text : Text) (language : String) (selection : Selection)
    (source : Settings.Source) (steps : List Step) :
    let start := (activate text language selection source).1
    (start.text = text ∧ start.selection = selection) ∧
    (∀ before step behind, steps = before ++ step :: behind →
      let editor := start.after before
      editor.Answers step (editor.step step)) ∧
    ∀ before between behind, steps = before ++ between ++ behind →
      (∀ step ∈ between, step.selects = false) →
      (start.after before).selection.Within (start.after before).text →
      (start.after (before ++ between)).selection.Within (start.after (before ++ between)).text := by
  intro start
  refine ⟨⟨rfl, rfl⟩, fun before step _ _ => answers_step _ step, ?_⟩
  rintro before between behind - unselected within
  rw [after_append]
  exact within_after unselected within

theorem runs_keep_selection_within_deleting :
    let steps : List Step :=
      [.select ⟨0, 0⟩, .command .jump [.number 1] .cancelled, .command .delete [] .cancelled]
    let start := (activate (.ofString "(a) b") "css" ⟨9, -1⟩ []).1
    start.Answers (.select ⟨0, 0⟩) (start.step (.select ⟨0, 0⟩)) ∧
      (start.after steps).text = .ofString " b" ∧
      (start.after steps).selection.Within (start.after steps).text := by
  intro steps start
  obtain ⟨_, answers, keeps⟩ := runs_keep_selection_within (.ofString "(a) b") "css" ⟨9, -1⟩ [] steps
  refine ⟨answers [] _ (steps.drop 1) rfl, by decide +kernel, keeps (steps.take 1) (steps.drop 1) [] rfl ?_ ?_⟩
  · simp [steps, Step.selects]
  · decide +kernel

theorem long_count_halts_editor :
    let start := (activate (.ofString "if a\nfi") "shellscript" ⟨0, 0⟩ []).1
    let outcome := start.step (.command .select [.number (.finite (exactThreshold + 2 : Nat))] .cancelled)
    outcome.2.halt = some .endless ∧ outcome.2.events = [] ∧
      ¬ start.Obeys (.command .select [.number (.finite (exactThreshold + 2 : Nat))] .cancelled)
        outcome.1 outcome.2 := by
  intro start outcome
  have halts : outcome.2.halt = some .endless ∧ outcome.2.events = [] := by decide +kernel
  exact ⟨halts.1, halts.2, fun obeys => by cases halts.1.symm.trans obeys.halts⟩

end Editor

end Counterpart
