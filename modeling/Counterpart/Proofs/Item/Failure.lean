import Counterpart.Proofs.Item
import Counterpart.Rule.Playback

/-! Rules that fail: a failing inspection is noted and passed over, while the error of a jump ends the asking. -/

namespace Counterpart

namespace Rule

structure Orderly (rule : Rule) (scene : Scene) : Prop where
  ends : ∀ trail left, (rule.inspect scene).run trail ≠ (.error .endless, left)
  inspects : (rule.inspect scene).Adds
  jumps : ∀ tag times, (rule.jump scene tag times).Adds

def inspected (rule : Rule) (scene : Scene) (trail : Trail) : Option rule.Tag × Trail :=
  match (rule.inspect scene).run trail with
  | (.ok tag, after) => (tag, after)
  | (.error (.raised message), after) =>
    (none, { after with journal := after.journal ++ [rule.failure after.cursor message] })
  | (.error .endless, after) => (none, after)

def Finishes (rule : Rule) (scene : Scene) : Prop :=
  ∀ trail left, (rule.inspect scene).run trail ≠ (.error .endless, left)

section

variable {rule : Rule} {scene : Scene}

lemma run_inspectSafely (finishes : rule.Finishes scene) (trail : Trail) :
    (rule.inspectSafely scene).run trail =
      (.ok (rule.inspected scene trail).1, (rule.inspected scene trail).2) := by
  rw [inspectSafely, Act.run_tryCatch, inspected]
  rcases hr : (rule.inspect scene).run trail with ⟨(_ | message) | tag, after⟩
  · rfl
  · exact (finishes trail after hr).elim
  · rfl

lemma inspected_adds (orderly : rule.Orderly scene) (trail : Trail) :
    trail.journal <+: (rule.inspected scene trail).2.journal := by
  have adds := orderly.inspects trail
  rw [inspected]
  rcases hr : (rule.inspect scene).run trail with ⟨(_ | message) | tag, after⟩ <;> rw [hr] at adds
  · exact adds.trans (List.prefix_append _ _)
  · exact adds
  · exact adds

lemma inspectSafely_adds (orderly : rule.Orderly scene) : (rule.inspectSafely scene).Adds := by
  intro trail
  rw [run_inspectSafely orderly.ends]
  exact inspected_adds orderly trail

end

variable (scene : Scene)

lemma orderly_playback (played : Playback) : played.rule.Orderly scene where
  ends trail left := by
    obtain ⟨name, start, destination, inspectError, jumpError⟩ := played
    cases inspectError <;> simp [Playback.rule, Playback.inspect, Act.note, Act.raise, Act.run_bind, Act.run_map]
  inspects := by
    refine Act.Adds.bind ?_ fun _ => Act.adds_pure _
    refine (Act.adds_record _).bind fun _ => ?_
    cases played.inspectError
    · exact Act.adds_pure _
    · exact Act.adds_throw _
  jumps := by
    intro start times
    refine (Act.adds_record _).bind fun _ => ?_
    cases played.jumpError with
    | some message => exact Act.adds_throw _
    | none =>
      cases played.destination with
      | none => exact Act.adds_pure _
      | some destination => exact (Act.adds_moveTo _).bind fun _ => Act.adds_pure _

lemma orderly_delimiters : delimiters.Orderly scene where
  ends trail left h := by
    obtain ⟨entries, run⟩ := Header.yields_inspect scene trail.cursor trail.journal
    exact absurd (congrArg Prod.fst (h.symm.trans run)) (by simp)
  inspects := Act.adds_of_yields fun origin => ⟨_, _, Header.yields_inspect scene origin⟩
  jumps header _ := Act.adds_of_yields fun origin =>
    ⟨_, _, Delimiter.yields_jump scene header.delimiter origin⟩

lemma finishes_keywords (name : String) (blocks : List Block) : (keywords name blocks).Finishes scene := by
  intro trail left h
  obtain ⟨entries, run⟩ := yields_inspect_keywords scene name blocks trail.cursor trail.journal
  cases h.symm.trans run

end Rule

namespace Item

structure Recognised where
  rule : Rule
  tag : rule.Tag
  trail : Trail

def firstTag? (scene : Scene) : List Rule → Trail → Option Recognised
  | [], _ => none
  | rule :: rules, trail =>
    match rule.inspected scene trail with
    | (some tag, after) => some ⟨rule, tag, after⟩
    | (none, after) => firstTag? scene rules after

def Recognised.jump (found : Recognised) (scene : Scene) (times : Number) : Except Halt (Option Int) × Trail :=
  (found.rule.jump scene found.tag times).run found.trail

def jumpNoted (scene : Scene) (times : Number) (rule : Rule) (tag : rule.Tag) : Act (Option Int) := do
  let destination ← rule.jump scene tag times
  Act.debug scene.settings
    (s!"rule \"{rule.name}\" jumped from " ++ offsetText (rule.start tag) ++ " to " ++ offsetText? destination)
  return destination

inductive AskedAt (scene : Scene) (times : Number) (rule : Rule) (place : Trail) :
    Bool → List Rule → Trail → Prop
  | now {jumped : Bool} {rules : List Rule} : AskedAt scene times rule place jumped (rule :: rules) place
  | passing {jumped : Bool} {first : Rule} {rules : List Rule} {trail : Trail} :
      jumped = true ∨ (first.inspected scene trail).1 = none →
      AskedAt scene times rule place jumped rules (first.inspected scene trail).2 →
      AskedAt scene times rule place jumped (first :: rules) trail
  | jumping {first : Rule} {rules : List Rule} {trail between landed : Trail} {tag : first.Tag}
      {destination : Option Int} :
      first.inspected scene trail = (some tag, between) →
      (jumpNoted scene times first tag).run between = (.ok destination, landed) →
      AskedAt scene times rule place true rules landed →
      AskedAt scene times rule place false (first :: rules) trail

variable {scene : Scene} (times : Number)

lemma askRules_adds {rules : List Rule} (orderly : ∀ rule ∈ rules, rule.Orderly scene)
    (found : Option (Int × Option Int)) : (askRules scene times pure found rules).Adds := by
  induction rules generalizing found with
  | nil => exact Act.adds_pure _
  | cons rule rules ih =>
    obtain ⟨hrule, hrules⟩ := List.forall_mem_cons.mp orderly
    rw [askRules]
    refine (Rule.inspectSafely_adds hrule).bind fun tag => ?_
    cases found with
    | some found => cases tag <;> exact ih hrules (some found)
    | none =>
      cases tag with
      | none => exact ih hrules none
      | some tag =>
        refine (Act.adds_pure _).bind fun _ => (hrule.jumps tag times).bind fun destination => ?_
        exact (Act.adds_debug _ _).bind fun _ => ih hrules _

section

variable {rule : Rule} (finishes : rule.Finishes scene) {β : Type} (hook : Int → Act β) (rules : List Rule)
include finishes

lemma run_askRules_found (found : β × Option Int) (trail : Trail) :
    (askRules scene times hook (some found) (rule :: rules)).run trail =
      (askRules scene times hook (some found) rules).run (rule.inspected scene trail).2 := by
  rw [askRules, Act.run_bind, Rule.run_inspectSafely finishes]

lemma run_askRules_untagged {trail : Trail} (h : (rule.inspected scene trail).1 = none) :
    (askRules scene times hook none (rule :: rules)).run trail =
      (askRules scene times hook none rules).run (rule.inspected scene trail).2 := by
  rw [askRules, Act.run_bind, Rule.run_inspectSafely finishes, h]

lemma run_askRules_acting {trail between : Trail} {tag : rule.Tag}
    (h : rule.inspected scene trail = (some tag, between)) :
    (askRules scene times hook none (rule :: rules)).run trail = Act.run (do
      let mark ← hook (rule.start tag)
      let destination ← jumpNoted scene times rule tag
      askRules scene times hook (some (mark, destination)) rules) between := by
  rw [askRules, Act.run_bind, Rule.run_inspectSafely finishes, h]
  simp only [jumpNoted, bind_assoc, pure_bind]

lemma run_askRules_tagged {trail between : Trail} {tag : rule.Tag}
    (h : rule.inspected scene trail = (some tag, between)) :
    (askRules scene times pure none (rule :: rules)).run trail =
      match (jumpNoted scene times rule tag).run between with
      | (.ok destination, landed) =>
          (askRules scene times pure (some (rule.start tag, destination)) rules).run landed
      | (.error halt, left) => (.error halt, left) := by
  rw [run_askRules_acting times finishes pure rules h, pure_bind, Act.run_bind]
  rcases (jumpNoted scene times rule tag).run between with ⟨halt | destination, landed⟩ <;> rfl

end

lemma run_jumpNoted {rule : Rule} (tag : rule.Tag) (trail : Trail) :
    (∀ halt left, (rule.jump scene tag times).run trail = (.error halt, left) →
      (jumpNoted scene times rule tag).run trail = (.error halt, left)) ∧
    ∀ destination landed, (rule.jump scene tag times).run trail = (.ok destination, landed) →
      ∃ noted, (jumpNoted scene times rule tag).run trail = (.ok destination, noted) := by
  constructor
  · intro halt left h
    rw [jumpNoted, Act.run_bind, h]
  · intro destination landed h
    rw [jumpNoted, Act.run_bind, h]
    exact ⟨_, rfl⟩

variable {rules : List Rule} (orderly : ∀ rule ∈ rules, rule.Orderly scene)
include orderly

lemma exists_run_askRules_found (found : Int × Option Int) (trail : Trail) :
    ∃ left, (askRules scene times pure (some found) rules).run trail = (.ok (some found), left) := by
  induction rules generalizing trail with
  | nil => exact ⟨trail, rfl⟩
  | cons rule rules ih =>
    obtain ⟨hrule, hrules⟩ := List.forall_mem_cons.mp orderly
    rw [run_askRules_found times hrule.ends]
    exact ih hrules _

lemma run_askRules (trail : Trail) :
    match firstTag? scene rules trail with
    | none => ∃ left, (askRules scene times pure none rules).run trail = (.ok none, left)
    | some found =>
      (∀ halt left, found.jump scene times = (.error halt, left) →
        (askRules scene times pure none rules).run trail = (.error halt, left)) ∧
      ∀ destination landed, found.jump scene times = (.ok destination, landed) → ∃ mark left,
        (askRules scene times pure none rules).run trail = (.ok (some (mark, destination)), left) := by
  induction rules generalizing trail with
  | nil => exact ⟨trail, rfl⟩
  | cons rule rules ih =>
    obtain ⟨hrule, hrules⟩ := List.forall_mem_cons.mp orderly
    rw [firstTag?]
    rcases hi : rule.inspected scene trail with ⟨_ | tag, between⟩
    · have next := run_askRules_untagged times hrule.ends pure rules (congrArg Prod.fst hi)
      rw [next, hi]
      exact ih hrules between
    · rw [run_askRules_tagged times hrule.ends rules hi]
      obtain ⟨fails, lands⟩ := @run_jumpNoted scene times rule tag between
      constructor
      · intro halt left h
        rw [fails halt left h]
      · intro destination landed h
        obtain ⟨noted, hn⟩ := lands destination landed h
        obtain ⟨left, hl⟩ := exists_run_askRules_found times hrules (rule.start tag, destination) noted
        rw [hn]
        exact ⟨_, left, hl⟩

lemma failure_noted {rule : Rule} {place trail after : Trail} {message : String} {jumped : Bool}
    (asked : AskedAt scene times rule place jumped rules trail)
    (fails : (rule.inspect scene).run place = (.error (.raised message), after))
    (found : Option (Int × Option Int)) (hf : found.isSome = jumped) :
    rule.failure after.cursor message ∈ ((askRules scene times pure found rules).run trail).2.journal := by
  induction asked generalizing found with
  | @now jumped rules =>
    obtain ⟨hrule, hrules⟩ := List.forall_mem_cons.mp orderly
    have noted : rule.inspected scene place =
        (none, { after with journal := after.journal ++ [rule.failure after.cursor message] }) := by
      rw [Rule.inspected, fails]
    have here : rule.failure after.cursor message ∈ (rule.inspected scene place).2.journal := by simp [noted]
    have later := askRules_adds times hrules found (rule.inspected scene place).2
    cases found with
    | none =>
      rw [run_askRules_untagged times hrule.ends pure rules (by rw [noted])]
      exact later.mem here
    | some found =>
      rw [run_askRules_found times hrule.ends]
      exact later.mem here
  | @passing jumped first rules trail passes _ ih =>
    obtain ⟨hfirst, hrules⟩ := List.forall_mem_cons.mp orderly
    cases found with
    | none =>
      have untagged := passes.resolve_left (by simp [← hf])
      rw [run_askRules_untagged times hfirst.ends pure rules untagged]
      exact ih hrules none hf
    | some found =>
      rw [run_askRules_found times hfirst.ends]
      exact ih hrules (some found) hf
  | @jumping first rules trail between landed tag destination tagged lands _ ih =>
    obtain ⟨hfirst, hrules⟩ := List.forall_mem_cons.mp orderly
    obtain rfl : found = none := by simpa using hf
    rw [run_askRules_tagged times hfirst.ends rules tagged, lands]
    exact ih hrules (some (first.start tag, destination)) rfl

end Item
end Counterpart
