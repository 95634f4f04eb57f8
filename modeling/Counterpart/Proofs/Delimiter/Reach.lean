import Counterpart.Proofs.Delimiter.Jump
import Counterpart.Proofs.Document.Lines

namespace Counterpart

namespace Delimiter

open Counterpart.Bracket

lemma nested_bounds {bracket : UInt16} {read : Nat → Option UInt16} {level room distance d : Nat}
    (h : nested bracket read level room distance = some d) : distance ≤ d ∧ d < distance + room := by
  induction room generalizing level distance with
  | zero => simp [nested] at h
  | succ room ih =>
    have further : ∀ {level}, nested bracket read level room (distance + 1) = some d →
        distance ≤ d ∧ d < distance + (room + 1) := by
      intro level hs
      have hb := ih hs
      omega
    rw [nested] at h
    split at h
    · exact further h
    · split at h
      · exact further h
      · split at h
        · split at h
          · obtain rfl := Option.some.inj h
            omega
          · exact further h
        · exact further h

lemma lastAlike_eq_some_iff {alike : Nat → Bool} {room distance d : Nat} :
    lastAlike alike room distance = some d ↔ distance ≤ d ∧ d < distance + room ∧
      (∀ e, distance < e → e ≤ d → alike e = true) ∧ alike (d + 1) = false := by
  induction room generalizing distance with
  | zero =>
    rw [lastAlike]
    refine iff_of_false (by simp) ?_
    rintro ⟨hl, hd, _⟩
    omega
  | succ room ih =>
    rw [lastAlike]
    by_cases ha : alike (distance + 1) = true
    · rw [if_pos ha, ih]
      constructor
      · rintro ⟨hl, hd, hin, hout⟩
        refine ⟨by omega, by omega, fun e he hed => ?_, hout⟩
        rcases Nat.eq_or_lt_of_le he with rfl | hlt
        · exact ha
        · exact hin e hlt hed
      · rintro ⟨hl, hd, hin, hout⟩
        have hne : distance ≠ d := by
          rintro rfl
          rw [hout] at ha
          contradiction
        exact ⟨by omega, by omega, fun e he hed => hin e (by omega) hed, hout⟩
    · rw [if_neg ha, Option.some.injEq]
      constructor
      · rintro rfl
        exact ⟨Nat.le_refl _, by omega, fun e he hed => by omega, Bool.eq_false_iff.mpr ha⟩
      · rintro ⟨hl, _, hin, _⟩
        apply Nat.le_antisymm hl
        apply Nat.le_of_not_lt
        intro hlt
        exact ha (hin (distance + 1) (Nat.lt_succ_self _) hlt)

variable {scene : Scene}

lemma distance?_le_reach {offset d : Nat} {forward : Bool} {u : UInt16}
    (h : distance? scene offset forward u = some d) : d ≤ reach scene offset forward := by
  rw [distance?] at h
  split at h
  · have hw := lastAlike_eq_some_iff.mp (Option.filter_eq_some_iff.mp h).1
    omega
  · split at h
    · have hb := nested_bounds h
      omega
    · split at h
      · have hb := nested_bounds h
        omega
      · have hb := balanced_bounds h
        omega

lemma partner?_lt_length {d : Delimiter} {partner : Nat} (h : partner? scene d = some partner) :
    partner < scene.document.length := by
  rw [partner?] at h
  split at h
  · contradiction
  · next offset _ =>
    obtain ⟨u, hu, hp⟩ := Option.bind_eq_some_iff.mp h
    obtain ⟨distance, hd, rfl⟩ := Option.map_eq_some_iff.mp hp
    have hlt : offset < scene.document.length := Document.lt_length_of_unit hu
    have hr := distance?_le_reach hd
    cases hf : d.forward <;> simp only [hf, reach, away, if_true, Bool.false_eq_true, if_false] at hr ⊢ <;> omega

lemma contains_destination? {d : Delimiter} {destination : Int} (h : destination? scene d = some destination) :
    scene.document.Contains destination := by
  cases hp : partner? scene d with
  | none => simp [destination?, bound?, hp] at h
  | some partner =>
    have hlt := partner?_lt_length hp
    have hd : restingPlace (if d.forward then (partner : Int) + 1 else partner) d.forward scene.selecting =
        destination := by
      simpa [destination?, bound?, hp] using h
    rw [← hd, restingPlace, Document.Contains]
    cases d.forward <;> cases scene.selecting <;> simp <;> omega

lemma contains_start {offset : Int} {d : Delimiter} (h : at? scene offset = some d) :
    scene.document.Contains d.start := by
  rw [at?] at h
  split at h
  · contradiction
  · obtain ⟨forward, hf, rfl⟩ := Option.map_eq_some_iff.mp h
    rw [direction?] at hf
    split at hf
    · contradiction
    · next u hu =>
      have hin : ¬ (offset < 0 ∨ scene.document.length ≤ offset) := fun hout => by
        rw [Scene.unit?, Document.unit?, Text.unit?_eq_none_iff.mpr hout] at hu
        contradiction
      cases forward <;> simp only [facing, Document.Contains, if_true, Bool.false_eq_true, if_false] <;> omega

end Delimiter

end Counterpart
