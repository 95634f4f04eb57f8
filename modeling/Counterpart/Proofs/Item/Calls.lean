import Counterpart.Proofs.Item.Failure

/-! The calls of an operation: each rule is inspected once, and only what is recognised first acts. -/

namespace Counterpart

namespace Rule

def JumpsUnfailingly (rule : Rule) (scene : Scene) (times : Number) : Prop :=
  ∀ tag trail message left, (rule.jump scene tag times).run trail ≠ (.error (.raised message), left)

lemma jumpsUnfailingly_of_lands {rule : Rule} {scene : Scene} {times : Number}
    (lands : ∀ tag trail, ∃ destination left,
      (rule.jump scene tag times).run trail = (.ok destination, left)) :
    rule.JumpsUnfailingly scene times := by
  intro tag trail message left run
  obtain ⟨destination, landed, ok⟩ := lands tag trail
  cases ok.symm.trans run

lemma jumpsUnfailingly_playback (scene : Scene) (times : Number) {played : Playback}
    (lands : played.jumpError = none) : played.rule.JumpsUnfailingly scene times := by
  obtain ⟨name, start, destination, inspectError, jumpError⟩ := played
  obtain rfl : jumpError = none := lands
  refine jumpsUnfailingly_of_lands fun start trail => ?_
  cases destination <;> exact ⟨_, _, rfl⟩

lemma jumpsUnfailingly_delimiters (scene : Scene) (times : Number) : delimiters.JumpsUnfailingly scene times := by
  refine jumpsUnfailingly_of_lands fun header trail => ?_
  obtain ⟨entries, run⟩ := Delimiter.yields_jump scene header.delimiter trail.cursor trail.journal
  exact ⟨_, _, run⟩

lemma jumpsUnfailingly_keywords (scene : Scene) (times : Number) (name : String) (blocks : List Block) :
    (keywords name blocks).JumpsUnfailingly scene times := by
  intro (tag : KeywordTag) trail message left run
  obtain ⟨destination, landing, yields, _⟩ | ⟨_, endless⟩ :=
    settles_jump_keywords scene times blocks tag trail.cursor
  · obtain ⟨entries, lands⟩ := yields trail.journal
    cases lands.symm.trans run
  · obtain ⟨left, goes_on⟩ := endless trail.journal
    cases goes_on.symm.trans run

end Rule

namespace Item

inductive Call where
  | inspection (rule : Rule) (tag : Option rule.Tag)
  | jump (rule : Rule) (tag : rule.Tag) (times : Number) (destination : Option Int)
  | delimiter (offset : Int) (found : Option Delimiter)
  | scan (d : Delimiter) (destination : Option Int)

namespace Call

def inspected? : Call → Option Rule
  | inspection rule _ => some rule
  | _ => none

def Leads (scene : Scene) : Call → Trail → Trail → Prop
  | inspection rule tag, before, after => rule.inspected scene before = (tag, after)
  | jump rule tag times destination, before, after =>
    (jumpNoted scene times rule tag).run before = (.ok destination, after)
  | delimiter offset found, before, after =>
    before.cursor = offset ∧ (Delimiter.inspect scene offset).run before = (.ok found, after)
  | scan d destination, before, after => (d.jump scene).run before = (.ok destination, after)

end Call

inductive Makes (scene : Scene) : List Call → Trail → Trail → Prop
  | nil (trail : Trail) : Makes scene [] trail trail
  | cons {call : Call} {calls : List Call} {before between after : Trail} :
      call.Leads scene before between → Makes scene calls between after →
      Makes scene (call :: calls) before after

inductive Chosen where
  | tagged (rule : Rule) (tag : rule.Tag) (behind : List Rule)
  | untagged (offset : Int) (found : Option Delimiter)

def Chosen.start : Chosen → Int
  | tagged rule tag _ => rule.start tag
  | untagged _ (some d) => d.start
  | untagged offset none => offset

def Chosen.GoesOn (scene : Scene) (times : Number) (trail left : Trail) : Chosen → Prop
  | tagged rule tag _ => (rule.jump scene tag times).run trail = (.error .endless, left)
  | untagged _ _ => False

/-- The calls before the hook: inspections in turn up to the first one that gives a tag, or else all of them
and a look at the delimiter. -/
inductive Opens : List Rule → List Call → Chosen → Prop
  | tagged {rule : Rule} {rules : List Rule} (tag : rule.Tag) :
      Opens (rule :: rules) [.inspection rule (some tag)] (.tagged rule tag rules)
  | untagged (offset : Int) (found : Option Delimiter) :
    Opens [] [.delimiter offset found] (.untagged offset found)
  | passing {rule : Rule} {rules : List Rule} {calls : List Call} {chosen : Chosen} :
      Opens rules calls chosen → Opens (rule :: rules) (.inspection rule none :: calls) chosen

inductive Inspects : List Rule → List Call → Prop
  | nil : Inspects [] []
  | cons {rule : Rule} {rules : List Rule} {calls : List Call} (tag : Option rule.Tag) :
      Inspects rules calls → Inspects (rule :: rules) (.inspection rule tag :: calls)

/-- The calls behind the hook: the jump, and the inspections that are left. -/
inductive Closes (times : Number) : Chosen → List Call → Option Int → Prop
  | tagged {rule : Rule} (tag : rule.Tag) {behind : List Rule} {calls : List Call} (destination : Option Int) :
      Inspects behind calls →
      Closes times (.tagged rule tag behind) (.jump rule tag times destination :: calls) destination
  | scanning (offset : Int) (d : Delimiter) (destination : Option Int) :
      Closes times (.untagged offset (some d)) [.scan d destination] destination
  | resting (offset : Int) : Closes times (.untagged offset none) [] none

variable {scene : Scene} {rules : List Rule} {chosen : Chosen} {first last : List Call} {times : Number}
  {destination : Option Int}

lemma Inspects.inspected (h : Inspects rules last) : last.filterMap Call.inspected? = rules := by
  induction h with
  | nil => rfl
  | @cons rule _ _ _ _ ih => exact congrArg (rule :: ·) ih

lemma inspected_of_opens (opens : Opens rules first chosen) (closes : Closes times chosen last destination) :
    (first ++ last).filterMap Call.inspected? = rules := by
  induction opens with
  | @tagged rule _ _ =>
    obtain ⟨_, _, inspects⟩ := closes
    exact congrArg (rule :: ·) inspects.inspected
  | untagged offset found => cases closes <;> rfl
  | @passing rule _ _ _ _ ih => exact congrArg (rule :: ·) (ih closes)

section

variable {β : Type} (hook : Int → Act β) (times)

def conclude (scene : Scene) (hook : Int → Act β) : Option (β × Option Int) → Act (β × Option Int)
  | some found => pure found
  | none => askDelimiter scene hook

lemma operate_eq (notSimple : scene.isSimple = false) (count : Number) :
    operate scene rules count hook = askRules scene count.times hook none rules >>= conclude scene hook := by
  rw [operate, notSimple]
  rfl

def complete (scene : Scene) (times : Number) (hook : Int → Act β) (mark : β) :
    Chosen → Act (β × Option Int)
  | .tagged rule tag behind => do
    let destination ← jumpNoted scene times rule tag
    conclude scene hook (← askRules scene times hook (some (mark, destination)) behind)
  | .untagged _ (some d) => do return (mark, ← d.jump scene)
  | .untagged _ none => return (mark, none)

lemma exists_opens (finishes : ∀ rule ∈ rules, rule.Finishes scene) (trail : Trail) :
    ∃ first chosen between, Opens rules first chosen ∧ Makes scene first trail between ∧
      (askRules scene times hook none rules >>= conclude scene hook).run trail =
        (hook chosen.start >>= fun mark => complete scene times hook mark chosen).run between := by
  induction rules generalizing trail with
  | nil =>
    obtain ⟨entries, run⟩ := Delimiter.yields_inspect scene trail.cursor trail.cursor trail.journal
    refine ⟨_, _, _, .untagged trail.cursor _, .cons ⟨rfl, run⟩ (.nil _), ?_⟩
    change (askDelimiter scene hook).run trail = _
    rw [askDelimiter, Act.run_bind, Act.run_cursor]
    change (Delimiter.inspect scene trail.cursor >>= _).run ⟨trail.cursor, trail.journal⟩ = _
    rw [Act.run_bind, run]
    cases Delimiter.at? scene trail.cursor <;> rfl
  | cons rule rules ih =>
    obtain ⟨hrule, hrules⟩ := List.forall_mem_cons.mp finishes
    rcases hi : rule.inspected scene trail with ⟨_ | tag, between⟩
    · obtain ⟨first, chosen, after, opens, makes, run⟩ := ih hrules between
      refine ⟨_, chosen, after, opens.passing, .cons hi makes, ?_⟩
      rw [Act.run_bind, run_askRules_untagged times hrule hook rules (congrArg Prod.fst hi), hi,
        ← Act.run_bind, run]
    · refine ⟨_, _, between, .tagged tag, .cons hi (.nil _), ?_⟩
      rw [Act.run_bind, run_askRules_acting times hrule hook rules hi, ← Act.run_bind]
      simp only [complete, Chosen.start, bind_assoc]

lemma exists_inspects (finishes : ∀ rule ∈ rules, rule.Finishes scene) (found : β × Option Int)
    (trail : Trail) :
    ∃ calls left, Inspects rules calls ∧ Makes scene calls trail left ∧
      (askRules scene times hook (some found) rules).run trail = (.ok (some found), left) := by
  induction rules generalizing trail with
  | nil => exact ⟨[], trail, .nil, .nil trail, rfl⟩
  | cons rule rules ih =>
    obtain ⟨hrule, hrules⟩ := List.forall_mem_cons.mp finishes
    obtain ⟨calls, left, inspects, makes, run⟩ := ih hrules (rule.inspected scene trail).2
    refine ⟨_, left, inspects.cons (rule.inspected scene trail).1, .cons rfl makes, ?_⟩
    rw [run_askRules_found times hrule hook rules, run]

lemma Opens.complete_cases (opens : Opens rules first chosen) (finishes : ∀ rule ∈ rules, rule.Finishes scene)
    (unfailing : ∀ rule ∈ rules, rule.JumpsUnfailingly scene times) (mark : β) (trail : Trail) :
    (∃ last destination left, Closes times chosen last destination ∧ Makes scene last trail left ∧
      (complete scene times hook mark chosen).run trail = (.ok (mark, destination), left)) ∨
    ∃ left, chosen.GoesOn scene times trail left ∧
      (complete scene times hook mark chosen).run trail = (.error .endless, left) := by
  induction opens with
  | @tagged rule rules tag =>
    obtain ⟨hrule, _⟩ := List.forall_mem_cons.mp unfailing
    obtain ⟨halts, lands⟩ := @run_jumpNoted scene times rule tag trail
    rcases jumps : (rule.jump scene tag times).run trail with ⟨(message | _) | destination, landed⟩
    · exact absurd jumps (hrule tag trail message landed)
    · refine .inr ⟨landed, jumps, ?_⟩
      rw [complete, Act.run_bind, halts .endless landed jumps]
    · obtain ⟨noted, hn⟩ := lands destination landed jumps
      obtain ⟨calls, left, inspects, makes, run⟩ :=
        exists_inspects times hook (List.forall_mem_cons.mp finishes).2 (mark, destination) noted
      refine .inl ⟨_, destination, left, .tagged tag destination inspects, .cons hn makes, ?_⟩
      rw [complete, Act.run_bind, hn]
      dsimp only
      rw [Act.run_bind, run]
      rfl
  | untagged offset found =>
    cases found with
    | none => exact .inl ⟨_, none, trail, .resting offset, .nil trail, rfl⟩
    | some d =>
      obtain ⟨entries, run⟩ := Delimiter.yields_jump scene d trail.cursor trail.journal
      refine .inl ⟨_, _, _, .scanning offset d _, .cons run (.nil _), ?_⟩
      change (d.jump scene >>= _).run ⟨trail.cursor, trail.journal⟩ = _
      rw [Act.run_bind, run]
      rfl
  | passing _ ih =>
    exact ih (List.forall_mem_cons.mp finishes).2 (List.forall_mem_cons.mp unfailing).2

end

/-- One item acts, in the order of the rules. An operation inspects in turn until a rule gives a tag; the hook
sees where that tag starts, the rule jumps from it, and the other rules are inspected too. Without a tag it is
the delimiter at the cursor that acts. A hook that is halted ends the operation, and a jump that goes on
without end leaves it without one. -/
theorem one_item_acts (scene : Scene) (rules : List Rule) (notSimple : scene.isSimple = false)
    (finishes : ∀ rule ∈ rules, rule.Finishes scene) (count : Number)
    (unfailing : ∀ rule ∈ rules, rule.JumpsUnfailingly scene count.times)
    (β : Type) (hook : Int → Act β) (trail : Trail) :
    ∃ first chosen between, Opens rules first chosen ∧ Makes scene first trail between ∧
      match (hook chosen.start).run between with
      | (.error halt, left) => (operate scene rules count hook).run trail = (.error halt, left)
      | (.ok mark, marked) =>
        (∃ last destination left, Closes count.times chosen last destination ∧ Makes scene last marked left ∧
          (first ++ last).filterMap Call.inspected? = rules ∧
          (operate scene rules count hook).run trail = (.ok (mark, destination), left)) ∨
        ∃ left, chosen.GoesOn scene count.times marked left ∧
          (operate scene rules count hook).run trail = (.error .endless, left) := by
  obtain ⟨first, chosen, between, opens, makes, run⟩ := exists_opens count.times hook finishes trail
  refine ⟨first, chosen, between, opens, makes, ?_⟩
  rw [operate_eq hook notSimple, run, Act.run_bind]
  rcases (hook chosen.start).run between with ⟨halt | mark, marked⟩
  · rfl
  · exact (opens.complete_cases count.times hook finishes unfailing mark marked).imp_left
      fun ⟨last, destination, left, closes, completes, hrun⟩ =>
        ⟨last, destination, left, closes, completes, inspected_of_opens opens closes, hrun⟩

theorem one_item_acts_behind_broken_rule :
    let scene := Scene.ofText (.ofString "if (5)\nfi") "shellscript" {} false
    let broken : Playback := { name := "broken", inspectError := some "out of order" }
    let rules := [broken.rule, Rule.shell, Rule.delimiters]
    scene.isSimple = false ∧ (∀ rule ∈ rules, rule.Finishes scene) ∧
      (∀ rule ∈ rules, rule.JumpsUnfailingly scene (Number.times 3)) ∧
      ∃ (calls : List Call) (left : Trail), calls.filterMap Call.inspected? = rules ∧
        (operate scene rules 3 pure).run ⟨2, []⟩ = (.ok (0, some 7), left) := by
  intro scene broken rules
  have notSimple : scene.isSimple = false := by decide +kernel
  have finishes : ∀ rule ∈ rules, rule.Finishes scene := by
    simp only [rules, List.forall_mem_cons, List.not_mem_nil, false_implies, implies_true, and_true]
    exact ⟨(Rule.orderly_playback scene broken).ends, Rule.finishes_keywords scene _ _,
      (Rule.orderly_delimiters scene).ends⟩
  have unfailing : ∀ rule ∈ rules, rule.JumpsUnfailingly scene (Number.times 3) := by
    simp only [rules, List.forall_mem_cons, List.not_mem_nil, false_implies, implies_true, and_true]
    exact ⟨Rule.jumpsUnfailingly_playback scene _ rfl, Rule.jumpsUnfailingly_keywords scene _ _ _,
      Rule.jumpsUnfailingly_delimiters scene _⟩
  have found : ((operate scene rules 3 pure).run ⟨2, []⟩).1.toOption = some (0, some 7) := by decide +kernel
  obtain ⟨first, chosen, between, _, _, outcome⟩ :=
    one_item_acts scene rules notSimple finishes 3 unfailing Int pure ⟨2, []⟩
  obtain ⟨last, destination, left, _, _, inspected, run⟩ | ⟨left, _, run⟩ := outcome
  · rw [run] at found
    refine ⟨notSimple, finishes, unfailing, first ++ last, left, inspected, ?_⟩
    rw [run, Option.some.inj found]
  · rw [run] at found
    contradiction

end Item

end Counterpart
