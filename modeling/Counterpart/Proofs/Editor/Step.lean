import Counterpart.Editor
import Counterpart.Proofs.Motion.Reach

namespace Counterpart

lemma Text.toUnits_erase (text : Text) (start stop : Nat) :
    (text.erase start stop).toUnits = text.toUnits.take start ++ text.toUnits.drop stop := by
  simp [erase, toUnits, length, List.take_of_length_le]

namespace Selection

def Within (selection : Selection) (text : Text) : Prop :=
  (0 ≤ selection.anchor ∧ selection.anchor ≤ text.length) ∧ 0 ≤ selection.active ∧
    selection.active ≤ text.length

instance (selection : Selection) (text : Text) : Decidable (selection.Within text) :=
  inferInstanceAs (Decidable ((_ ∧ _) ∧ _ ∧ _))

lemma within_clamp (text : Text) (anchor active : Int) :
    Within ⟨text.clamp anchor, text.clamp active⟩ text := by
  have ha := text.clamp_le anchor
  have hc := text.clamp_le active
  simp only [Within]
  omega

lemma shiftEnd_bounds {text : Text} {start stop : Nat} {offset : Int} (ordered : start ≤ stop)
    (inside : stop ≤ text.length) (ho : 0 ≤ offset ∧ offset ≤ text.length) :
    0 ≤ shiftEnd text start stop offset ∧
    shiftEnd text start stop offset ≤ (text.erase start stop).length := by
  rw [Text.length_erase ordered inside, shiftEnd]
  split
  · rw [Text.settle_of_mem (by omega) (by omega)]
    omega
  · omega

lemma Within.afterErase {selection : Selection} {text : Text} {start stop : Nat} (h : selection.Within text)
    (ordered : start ≤ stop) (inside : stop ≤ text.length) :
    (selection.afterErase text start stop).Within (text.erase start stop) :=
  ⟨shiftEnd_bounds ordered inside h.1, shiftEnd_bounds ordered inside h.2⟩

end Selection

namespace Editor

namespace Step

def deletes : Step → Bool
  | .command order _ _ => order = .delete || order = .deleteInner
  | _ => false

def moves : Step → Bool
  | .command order _ _ => order = .jump || order = .select || order = .selectInner || order = .jumpToPercentage
  | _ => false

def selects : Step → Bool
  | .select _ => true
  | _ => false

def Outcounts : Step → Prop
  | .command _ arguments _ => ∃ count ∈ Command.count? arguments, count.times.hops = none
  | _ => False

lemma deletes_eq_false_of_moves {step : Step} (moves : step.moves = true) : step.deletes = false := by
  cases step with
  | command order arguments answer => cases order <;> first | rfl | contradiction
  | _ => rfl

end Step

def Misses (editor : Editor) : Step → Prop
  | .command .jump arguments _ =>
    (editor.runAct fun scene rules => Motion.jump scene rules (Command.count? arguments)).1 = .ok none
  | .command .select arguments _ =>
    (editor.runAct fun scene rules => Motion.select scene rules (Command.count? arguments) false).1 = .ok none
  | .command .selectInner arguments _ =>
    (editor.runAct fun scene rules => Motion.select scene rules (Command.count? arguments) true).1 = .ok none
  | .command .delete arguments _ =>
    (editor.runAct fun scene rules => Motion.delete scene rules (Command.count? arguments) false).1 = .ok none
  | .command .deleteInner arguments _ =>
    (editor.runAct fun scene rules => Motion.delete scene rules (Command.count? arguments) true).1 = .ok none
  | .command .jumpToPercentage arguments answer =>
    Command.count? arguments = none ∧ ∀ input, answer ≠ .typed input
  | _ => False

structure Obeys (editor : Editor) (step : Step) (next : Editor) (report : Report) : Prop where
  halts : report.halt = none
  keeps : step.deletes = false ∨ editor.Misses step →
    next.text = editor.text ∧ ∀ start stop, .deleted start stop ∉ report.events
  deletes : step.deletes = true → ¬ editor.Misses step →
    ∃ start stop, start ≤ stop ∧ stop ≤ editor.text.length ∧ report.events = [.deleted start stop] ∧
    next.text.toUnits = editor.text.toUnits.take start ++ editor.text.toUnits.drop stop
  misses : editor.Misses step → next.selection = editor.selection ∧ .revealed ∉ report.events
  shows : step.moves = true → ¬ editor.Misses step →
    report.events.count .revealed = 1 ∧ next.selection.Within next.text
  within : step.selects = false → editor.selection.Within editor.text → next.selection.Within next.text

/-- A command goes on without end. It shows nothing, and leaves the editor as it is. -/
structure Sticks (editor : Editor) (step : Step) (next : Editor) (report : Report) : Prop where
  outcounts : step.Outcounts
  halts : report.halt = some .endless
  keeps : next = editor
  shows : report.events = []

def Answers (editor : Editor) (step : Step) (outcome : Editor × Report) : Prop :=
  editor.Obeys step outcome.1 outcome.2 ∨ editor.Sticks step outcome.1 outcome.2

variable {editor next : Editor} {step : Step} {report : Report}

def Event.isQuiet : Event → Bool
  | .deleted _ _ => false
  | .revealed => false
  | _ => true

lemma not_mem_of_quiet {events : List Event} (quiet : events.all Event.isQuiet = true) :
    .revealed ∉ events ∧ ∀ start stop, .deleted start stop ∉ events := by
  rw [List.all_eq_true] at quiet
  constructor
  · intro h
    have hq := quiet _ h
    contradiction
  · intro start stop h
    have hq := quiet _ h
    contradiction

lemma obeys_of_quiet (idle : editor.Misses step ∨ step.moves = false ∧ step.deletes = false)
    (halts : report.halt = none) (quiet : report.events.all Event.isQuiet = true)
    (text : next.text = editor.text)
    (selection : editor.Misses step ∨ step.selects = false → next.selection = editor.selection) :
    Obeys editor step next report where
  halts := halts
  keeps _ := ⟨text, (not_mem_of_quiet quiet).2⟩
  deletes hd found := by
    rcases idle with misses | ⟨_, keeps⟩
    · contradiction
    · rw [hd] at keeps
      contradiction
  misses missed := ⟨selection (.inl missed), (not_mem_of_quiet quiet).1⟩
  shows hm found := by
    rcases idle with misses | ⟨rests, _⟩
    · contradiction
    · rw [hm] at rests
      contradiction
  within hs within := by
    rw [text, selection (.inr hs)]
    exact within

lemma obeys_of_shown (found : ¬ editor.Misses step) (moves : step.moves = true) (halts : report.halt = none)
    (asked : List Event) (quiet : asked.all Event.isQuiet = true)
    (shown : report.events = asked ++ [.revealed])
    (text : next.text = editor.text) (within : next.selection.Within next.text) :
    Obeys editor step next report where
  halts := halts
  keeps _ := by
    refine ⟨text, fun start stop h => ?_⟩
    rw [shown, List.mem_append] at h
    rcases h with h | h
    · exact (not_mem_of_quiet quiet).2 start stop h
    · simp at h
  deletes hd := by
    rw [Step.deletes_eq_false_of_moves moves] at hd
    contradiction
  misses missed := absurd missed found
  shows _ _ := by
    rw [shown, List.count_append, List.count_eq_zero.mpr (not_mem_of_quiet quiet).1]
    exact ⟨rfl, within⟩
  within _ _ := within

lemma obeys_of_erased {region : Region} (found : ¬ editor.Misses step) (deletes : step.deletes = true)
    (inside : region.LiesIn editor.text) (halts : report.halt = none)
    (events : report.events = (editor.erase region).2.events) :
    Obeys editor step (editor.erase region).1 report where
  halts := halts
  keeps h := by
    rcases h with h | h
    · rw [deletes] at h
      contradiction
    · contradiction
  deletes _ _ := by
    refine ⟨_, _, ?_, editor.text.clamp_le _, events, editor.text.toUnits_erase _ _⟩
    obtain ⟨_, ordered, _⟩ := inside
    simp only [Text.clamp]
    omega
  misses missed := absurd missed found
  shows hm := by
    rw [Step.deletes_eq_false_of_moves hm] at deletes
    contradiction
  within _ h := by
    refine h.afterErase ?_ (editor.text.clamp_le _)
    obtain ⟨_, ordered, _⟩ := inside
    simp only [Text.clamp]
    omega

variable (editor) in
lemma reliable_rules (scene : Scene) (times : Number) : ∀ rule ∈ editor.rules, rule.Reliable scene times :=
  fun _ hr => Rulebook.reliable_standard scene times hr

lemma exists_runAct_eq {α : Type} {act : Scene → List Rule → Act α} {result : α} {landing : Int}
    (yields : (act (Scene.ofSelection editor.text editor.language editor.selection editor.settings)
      editor.rules).Yields
      (editor.selection.cursor editor.text) result landing) :
    ∃ entries, editor.runAct act = (.ok result, entries) := by
  obtain ⟨entries, run⟩ := yields []
  exact ⟨entries, by rw [runAct, run, List.nil_append]⟩

lemma answers_of_settles {α : Type} (P : α → Prop) {act : Scene → List Rule → Act (Option α)}
    {continuation : α → Editor × Report} (asks : editor.Misses step ↔ (editor.runAct act).1 = .ok none)
    (settles : ∀ scene : Scene, scene.document.text = editor.text → ∀ origin,
      (act scene editor.rules).Settles origin (∀ found ∈ ·, P found) step.Outcounts)
    (continues : ∀ found, P found → ¬ editor.Misses step → ∀ journal,
      Obeys editor step (continuation found).1 { (continuation found).2 with journal := journal }) :
    editor.Answers step (editor.conclude (editor.runAct act) continuation) := by
  let scene := Scene.ofSelection editor.text editor.language editor.selection editor.settings
  rcases settles scene rfl (editor.selection.cursor editor.text) with ⟨result, landing, hy, hp⟩
    | ⟨outcounts, endless⟩
  · obtain ⟨entries, hr⟩ := exists_runAct_eq hy
    rw [hr] at asks ⊢
    left
    cases result with
    | none => exact obeys_of_quiet (.inl (asks.mpr rfl)) rfl rfl rfl fun _ => rfl
    | some found =>
      have hf : ¬ editor.Misses step := by simp [asks]
      exact continues found (hp found rfl) hf _
  · obtain ⟨left, run⟩ := endless []
    have hr : editor.runAct act = (.error .endless, left.journal) := by rw [runAct, run]
    rw [hr]
    exact .inr ⟨outcounts, rfl, rfl, rfl⟩

lemma obeys_reveal (found : ¬ editor.Misses step) (moves : step.moves = true) (selection : Selection)
    (journal : List Entry) :
    Obeys editor step (editor.reveal selection).1 { (editor.reveal selection).2 with journal := journal } :=
  obeys_of_shown found moves rfl [] rfl rfl rfl (Selection.within_clamp _ _ _)

section

variable {count : Option Number} (counts : (∃ n ∈ count, n.times.hops = none) → step.Outcounts)
include counts

lemma answers_jump (moves : step.moves = true)
    (asks : editor.Misses step ↔ (editor.runAct fun scene rules => Motion.jump scene rules count).1 = .ok none) :
    editor.Answers step (editor.jump count) := by
  refine answers_of_settles (fun _ => True) asks (fun scene _ origin => ?_) fun destination _ found journal => ?_
  · have settles := Motion.settles_jump (editor.reliable_rules scene (count.getD 1).times) origin
    exact (settles.imp fun hang => counts (Motion.unreachable_of_hang hang)).mono fun _ _ _ _ => trivial
  · exact obeys_reveal found moves _ journal

lemma answers_select (inner : Bool) (moves : step.moves = true) (asks : editor.Misses step ↔
      (editor.runAct fun scene rules => Motion.select scene rules count inner).1 = .ok none) :
    editor.Answers step (editor.selectItem inner count) := by
  refine answers_of_settles (fun _ => True) asks (fun scene _ origin => ?_) fun region _ found journal => ?_
  · have reliable := editor.reliable_rules { scene with selecting := true } (count.getD 1).times
    have settles := Motion.settles_select reliable inner origin
    exact (settles.imp fun hang => counts (Motion.unreachable_of_hang hang)).mono fun _ _ _ _ => trivial
  · exact obeys_reveal found moves _ journal

lemma answers_delete (inner : Bool) (deletes : step.deletes = true) (asks : editor.Misses step ↔
      (editor.runAct fun scene rules => Motion.delete scene rules count inner).1 = .ok none) :
    editor.Answers step (editor.deleteItem inner count) := by
  refine answers_of_settles (fun region => region.LiesIn editor.text) asks (fun scene same origin => ?_)
    fun region inside found journal => ?_
  · have reliable := editor.reliable_rules { scene with selecting := true } (count.getD 1).times
    have settles := Motion.settles_delete reliable inner origin
    rw [← same]
    exact settles.imp fun hang => counts (Motion.unreachable_of_hang hang)
  · exact obeys_of_erased found deletes inside rfl rfl

end

lemma jumpToPercentage_eq (percent : Number) :
    let place := Motion.percentagePlace (Document.ofText editor.text editor.language) percent
    ∃ journal, editor.jumpToPercentage percent =
      ((editor.revealJump place).1, { (editor.revealJump place).2 with journal := journal }) := by
  intro place
  let scene := Scene.ofSelection editor.text editor.language editor.selection editor.settings
  have yields : (Motion.jumpToPercentage scene percent >>= fun d => pure (some d)).Yields
      (editor.selection.cursor editor.text) (some (place : Int)) place :=
    (Motion.yields_jumpToPercentage scene percent _).bind (Act.yields_pure _ _)
  obtain ⟨entries, run⟩ := yields []
  have concludes : editor.jumpToPercentage percent =
      editor.conclude (.ok (some (place : Int)), entries) editor.revealJump := by
    rw [jumpToPercentage, runAct, run, List.nil_append]
  exact ⟨_, concludes⟩

lemma obeys_promptForPercentage {arguments : List Value} {answer : Prompt.Answer}
    (absent : Command.count? arguments = none) :
    Obeys editor (.command .jumpToPercentage arguments answer) (editor.promptForPercentage answer).1
      (editor.promptForPercentage answer).2 := by
  cases answer with
  | cancelled => exact obeys_of_quiet (.inl ⟨absent, by simp⟩) rfl rfl rfl fun _ => rfl
  | failed message => exact obeys_of_quiet (.inl ⟨absent, by simp⟩) rfl rfl rfl fun _ => rfl
  | typed input =>
    obtain ⟨journal, hj⟩ := editor.jumpToPercentage_eq (Prompt.percentage input)
    have found : ¬ editor.Misses (.command .jumpToPercentage arguments (.typed input)) := fun h => h.2 input rfl
    rw [promptForPercentage, hj]
    exact obeys_of_shown found rfl rfl _ rfl rfl rfl (Selection.within_clamp _ _ _)

lemma answers_step (editor : Editor) (step : Step) : editor.Answers step (editor.step step) := by
  cases step with
  | select selection =>
    exact .inl (obeys_of_quiet (.inr ⟨rfl, rfl⟩) rfl rfl rfl (by rintro (h | h) <;> contradiction))
  | configure source concerned =>
    rw [Editor.step, changeSettings]
    split
    · exact .inl (obeys_of_quiet (.inr ⟨rfl, rfl⟩) rfl rfl rfl fun _ => rfl)
    · exact .inl (obeys_of_quiet (.inr ⟨rfl, rfl⟩) rfl rfl rfl fun _ => rfl)
  | command order arguments answer =>
    cases order with
    | jump => exact answers_jump id rfl .rfl
    | select => exact answers_select id false rfl .rfl
    | selectInner => exact answers_select id true rfl .rfl
    | delete => exact answers_delete id false rfl .rfl
    | deleteInner => exact answers_delete id true rfl .rfl
    | showSettings => exact .inl (obeys_of_quiet (.inr ⟨rfl, rfl⟩) rfl rfl rfl fun _ => rfl)
    | jumpToPercentage =>
      left
      cases hc : Command.count? arguments with
      | none =>
        have prompts : editor.step (.command .jumpToPercentage arguments answer) =
            editor.promptForPercentage answer := by rw [Editor.step, perform, hc]
        rw [prompts]
        exact obeys_promptForPercentage hc
      | some percent =>
        obtain ⟨journal, hj⟩ := editor.jumpToPercentage_eq percent
        have jumps : editor.step (.command .jumpToPercentage arguments answer) =
            editor.jumpToPercentage percent := by
          rw [Editor.step, perform, hc]
        have found : ¬ editor.Misses (.command .jumpToPercentage arguments answer) := by simp [Misses, hc]
        rw [jumps, hj]
        exact obeys_reveal found rfl _ journal

end Editor

end Counterpart
