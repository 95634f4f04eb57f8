import Counterpart.Delimiter.Partner
import Counterpart.Proofs.Act
import Counterpart.Proofs.Delimiter.Partner

namespace Counterpart

namespace Delimiter

variable (scene : Scene)

variable {scene} in
lemma looks_inspect_unguarded {offset : Int} (unguarded : scene.isGuarded offset = false) (origin : Int) :
    (inspect scene offset).Looks origin [] (at? scene offset) := by
  rw [inspect, unguarded, if_neg Bool.false_ne_true]
  exact Act.looks_pure _

lemma exists_looks_inspect (offset origin : Int) :
    ∃ noted, (inspect scene offset).Looks origin noted (at? scene offset) := by
  cases hg : scene.isGuarded offset with
  | false => exact ⟨_, looks_inspect_unguarded hg origin⟩
  | true =>
    rw [inspect, hg, if_pos rfl]
    exact ⟨_, (Act.looks_debug _ _).bind (Act.looks_pure _)⟩

lemma yields_inspect (offset origin : Int) : (inspect scene offset).Yields origin (at? scene offset) origin := by
  obtain ⟨noted, looks⟩ := exists_looks_inspect scene offset origin
  exact looks.yields

lemma exists_run_jump (d : Delimiter) :
    ∃ entries, ∀ trail, (d.jump scene).run trail =
      (.ok (destination? scene d), ⟨(destination? scene d).getD trail.cursor, trail.journal ++ entries⟩) := by
  cases h : destination? scene d with
  | none =>
    refine ⟨Act.debugEntries scene.settings ("no match for delimiter at " ++ offsetText d.offset),
      fun trail => ?_⟩
    rw [jump, h]
    rfl
  | some destination =>
    refine ⟨[], fun trail => ?_⟩
    rw [jump, h, List.append_nil]
    rfl

lemma yields_jump (d : Delimiter) (origin : Int) :
    (d.jump scene).Yields origin (destination? scene d) ((destination? scene d).getD origin) := by
  obtain ⟨entries, run⟩ := exists_run_jump scene d
  exact fun journal => ⟨entries, run ⟨origin, journal⟩⟩

variable {scene} in
lemma facing_of_at? {offset : Int} {d : Delimiter} {b : Bracket} (h : at? scene offset = some d)
    (hb : scene.unit? offset = some b.unit) : d = facing offset b.opening := by
  rw [at?] at h
  split at h
  · contradiction
  · rw [direction?, hb] at h
    simp only [Bracket.ofUnit?_unit, Option.map_some, Option.some.injEq] at h
    exact h.symm

variable {scene} in
lemma unguarded_of_at? {offset : Int} {d : Delimiter} (h : at? scene offset = some d) :
    scene.isGuarded offset = false := by
  rw [at?] at h
  split at h
  · contradiction
  · next hg => exact Bool.eq_false_iff.mpr hg

variable {scene} in
lemma offset_of_at? {offset : Int} {d : Delimiter} (h : at? scene offset = some d) : d.offset = offset := by
  rw [at?] at h
  split at h
  · contradiction
  · obtain ⟨forward, _, rfl⟩ := Option.map_eq_some_iff.mp h
    rfl

variable {scene} in
lemma destination?_extending {d : Delimiter} {partner : Nat} (h : partner? scene d = some partner) :
    destination? { scene with selecting := true } d =
      some (if d.forward then (partner : Int) + 1 else partner) := by
  have hp : partner? { scene with selecting := true } d = some partner := h
  simp [destination?, bound?, restingPlace, hp]

variable {scene} in
lemma exists_partner_of_destination? {d : Delimiter} {destination : Int}
    (h : destination? scene d = some destination) :
    ∃ partner, partner? scene d = some partner := by
  cases hp : partner? scene d with
  | none => simp [destination?, bound?, hp] at h
  | some partner => exact ⟨partner, rfl⟩

def landing? (offset : Int) : Option Int := (at? scene offset).bind (destination? scene)

lemma yields_simpleJump (origin : Int) :
    (simpleJump scene).Yields origin (landing? scene origin) ((landing? scene origin).getD origin) := by
  refine (Act.yields_cursor origin).bind ((yields_inspect scene origin origin).bind ?_)
  rw [landing?]
  cases at? scene origin with
  | none => exact Act.yields_pure _ _
  | some d => exact yields_jump scene d origin

end Delimiter

end Counterpart
