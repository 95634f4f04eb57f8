import Counterpart.Proofs.Bracket.Pairing
import Counterpart.Block.Search
import Counterpart.Proofs.Block.Search

/-! Places that move apart to let others in between: what is matched over the gap is what was matched without
it. -/

namespace Counterpart

structure Gap where
  start : Nat
  length : Nat

namespace Gap

variable (gap : Gap)

def place (o : Nat) : Nat := if o < gap.start then o else o + gap.length

def shift (o : Int) : Int := if o < gap.start then o else o + gap.length

lemma shift_natCast (o : Nat) : gap.shift o = gap.place o := by
  simp only [shift, place, Int.ofNat_lt]
  split <;> simp

variable {gap}

lemma place_of_lt {o : Nat} (h : o < gap.start) : gap.place o = o := if_pos h

lemma place_of_le {o : Nat} (h : gap.start ≤ o) : gap.place o = o + gap.length := if_neg (Nat.not_lt.mpr h)

lemma place_lt_place_iff {a b : Nat} : gap.place a < gap.place b ↔ a < b := by
  simp only [place]
  split <;> split <;> omega

lemma shift_lt_shift_iff {a b : Int} : gap.shift a < gap.shift b ↔ a < b := by
  simp only [shift]
  split <;> split <;> omega

lemma place_inj {a b : Nat} : gap.place a = gap.place b ↔ a = b := by
  simp only [place]
  split <;> split <;> omega

lemma exists_place {p : Nat} (h : ¬ (gap.start ≤ p ∧ p < gap.start + gap.length)) :
    ∃ o, p = gap.place o := by
  by_cases hp : p < gap.start
  · exact ⟨p, (place_of_lt hp).symm⟩
  · refine ⟨p - gap.length, ?_⟩
    rw [place_of_le (by omega)]
    omega

structure Opens {α : Type} (gap : Gap) (read wide : Nat → Option α) : Prop where
  moved : ∀ o, wide (gap.place o) = read o
  empty : ∀ o, gap.start ≤ o → o < gap.start + gap.length → wide o = none

end Gap

namespace Bracket

open Delimiter

lemma span_eq_nil {read : Nat → Option Bracket} {start stop : Nat}
    (h : ∀ o, start ≤ o → o < stop → read o = none) : span read start stop = [] := by
  rw [span, List.filterMap_eq_nil_iff]
  intro o ho
  rw [List.mem_range'_1] at ho
  exact h o ho.1 (by omega)

variable {gap : Gap} {read wide : Nat → Option Bracket} (opens : gap.Opens read wide)
include opens

lemma span_place_succ (o : Nat) : span wide (gap.place o) (gap.place (o + 1)) = span read o (o + 1) := by
  have further : gap.place o < gap.place (o + 1) := Gap.place_lt_place_iff.mpr (Nat.lt_succ_self o)
  have empty : span wide (gap.place o + 1) (gap.place (o + 1)) = [] := by
    refine span_eq_nil fun p hl hr => opens.empty p ?_ ?_ <;> simp only [Gap.place] at hl hr <;> split at hl <;>
      split at hr <;> omega
  rw [span_step wide further, opens.moved, empty, span_step read (Nat.lt_succ_self o), span_self]

lemma span_place {i j : Nat} (h : i ≤ j) : span wide (gap.place i) (gap.place j) = span read i j := by
  induction h with
  | refl => rw [span_self, span_self]
  | @step j h ih =>
    have hj : i ≤ j := h
    have here : gap.place i ≤ gap.place j := Nat.le_of_not_lt fun hlt => by
      rw [Gap.place_lt_place_iff] at hlt
      omega
    have next : gap.place j ≤ gap.place (j + 1) := Nat.le_of_lt (Gap.place_lt_place_iff.mpr (Nat.lt_succ_self j))
    rw [span_append wide here next, span_append read hj (Nat.le_succ j), ih, span_place_succ opens]

lemma paired_place {o p : Nat} : Paired wide (gap.place o) (gap.place p) ↔ Paired read o p := by
  rw [Paired, Paired, opens.moved, opens.moved, Gap.place_lt_place_iff]
  refine and_congr_right fun hlt => exists_congr fun s => and_congr_right fun ho => ?_
  have whole := span_place opens (Nat.le_of_lt hlt)
  rw [span_cons wide (Gap.place_lt_place_iff.mpr hlt) ((opens.moved o).trans ho), span_cons read hlt ho,
    List.cons_inj_right] at whole
  rw [whole]

lemma exists_place_of_some {p : Nat} {b : Bracket} (h : wide p = some b) : ∃ o, p = gap.place o := by
  apply Gap.exists_place
  rintro ⟨hl, hr⟩
  rw [opens.empty p hl hr] at h
  contradiction

lemma paired_place_left {o p : Nat} : Paired wide (gap.place o) p ↔
    ∃ q, Paired read o q ∧ gap.place q = p := by
  constructor
  · intro paired
    obtain ⟨q, rfl⟩ := exists_place_of_some opens paired.2.choose_spec.2.1
    exact ⟨q, (paired_place opens).mp paired, rfl⟩
  · rintro ⟨q, paired, rfl⟩
    exact (paired_place opens).mpr paired

lemma paired_place_right {o p : Nat} : Paired wide o (gap.place p) ↔
    ∃ q, Paired read q p ∧ gap.place q = o := by
  constructor
  · intro paired
    obtain ⟨q, rfl⟩ := exists_place_of_some opens paired.2.choose_spec.1
    exact ⟨q, (paired_place opens).mp paired, rfl⟩
  · rintro ⟨q, paired, rfl⟩
    exact (paired_place opens).mpr paired

end Bracket

namespace Block

section

variable {number : Nat} {entering : Role} {pausing : Bool} {read wide : Nat → Option LineKeyword}

lemma seek_shift {room distance : Nat} (behind : ∀ d, distance ≤ d → d < distance + room →
    wide (d + 1) = read d) (depth : Nat) : seek number entering pausing wide room (distance + 1) depth =
      (seek number entering pausing read room distance depth).map (Prod.map (· + 1) id) := by
  induction room generalizing distance depth with
  | zero => rfl
  | succ room ih =>
    have next := @ih (distance + 1) fun d hl hr => behind d (by omega) (by omega)
    rw [seek, seek, behind distance (Nat.le_refl _) (by omega)]
    cases read distance with
    | none => exact next depth
    | some found =>
      dsimp only
      split
      · exact next depth
      · split
        · exact next (depth + 1)
        · split <;> split
          · rfl
          · exact next depth
          · rfl
          · exact next (depth - 1)

lemma seek_gap {g room wider distance : Nat} (hw : wider = room + 1) (empty : wide g = none) (hl : distance ≤ g)
    (hr : g ≤ distance + room) (ahead : ∀ d, d < g → wide d = read d)
    (behind : ∀ d, g ≤ d → d < distance + room → wide (d + 1) = read d) (depth : Nat) :
    seek number entering pausing wide wider distance depth =
      (seek number entering pausing read room distance depth).map (Prod.map (Gap.place ⟨g, 1⟩) id) := by
  induction room generalizing wider distance depth with
  | zero =>
    obtain rfl : distance = g := by omega
    rw [hw, seek, seek, empty]
    rfl
  | succ room ih =>
    rcases Nat.eq_or_lt_of_le hl with rfl | hlt
    · rw [hw, seek, empty]
      refine (seek_shift (fun d hl hr => behind d hl (by omega)) depth).trans ?_
      cases hs : seek number entering pausing read (room + 1) distance depth with
      | none => rfl
      | some result =>
        have further : Gap.place ⟨distance, 1⟩ result.1 = result.1 + 1 := Gap.place_of_le (seek_sound hs).le
        exact congrArg (fun d => some (d, result.2)) further.symm
    · obtain ⟨wider, rfl⟩ := Nat.exists_eq_add_one_of_ne_zero (Nat.ne_zero_of_lt (by omega : 0 < wider))
      have next := @ih wider (distance + 1) (by omega) hlt (by omega) fun d hg hd => behind d hg (by omega)
      have here : ∀ found : LineKeyword, some (distance, found) =
          (some (distance, found)).map (Prod.map (Gap.place ⟨g, 1⟩) id) :=
        fun found =>
          congrArg (fun d => some (d, found)) (Gap.place_of_lt hlt : Gap.place ⟨g, 1⟩ distance = _).symm
      rw [seek, seek, ahead distance hlt]
      cases read distance with
      | none => exact next depth
      | some found =>
        dsimp only
        split
        · exact next depth
        · split
          · exact next (depth + 1)
          · split <;> split
            · exact here found
            · exact next depth
            · exact here found
            · exact next (depth - 1)

section

variable {lines : Gap} (opens : lines.Opens read wide) (single : lines.length = 1)
include opens single

lemma seek_above (line : Nat) :
    (seek number entering pausing (fun d => wide (lines.place line - 1 - d)) (lines.place line) 0 0).map
        (fun (d, found) => (lines.place line - 1 - d, found)) =
      ((seek number entering pausing (fun d => read (line - 1 - d)) line 0 0).map
        fun (d, found) => (line - 1 - d, found)).map (Prod.map lines.place id) := by
  rw [Option.map_map]
  rcases Nat.lt_or_ge line lines.start with above | below
  · have same : ∀ d, lines.place (line - 1 - d) = line - 1 - d := fun d => Gap.place_of_lt (by omega)
    have reads : (fun d => wide (line - 1 - d)) = fun d => read (line - 1 - d) :=
      funext fun d => by rw [← opens.moved, same]
    rw [Gap.place_of_lt above, reads]
    exact Option.map_congr fun result _ => by simp [same]
  · rw [Gap.place_of_le below, single, Nat.add_sub_cancel]
    have walk := @seek_gap number entering pausing (fun d => read (line - 1 - d)) (fun d => wide (line - d))
      (line - lines.start) line (line + 1) 0 rfl (opens.empty _ (by omega) (by omega)) (Nat.zero_le _) (by omega)
      (fun d hd => by
        rw [← opens.moved, Gap.place_of_le (by omega), single]
        congr 1
        omega)
      (fun d hl hr => by
        rw [← opens.moved, Gap.place_of_lt (by omega)]
        congr 1
        omega) 0
    rw [walk, Option.map_map]
    refine Option.map_congr fun result hr => ?_
    have room := (seek_sound hr).lt
    simp only [Function.comp_apply, Prod.map, Gap.place, single, id]
    congr 1
    split <;> split <;> omega

lemma seek_below {count : Nat} (within : lines.start < count) (line : Nat) :
    (seek number entering pausing (fun d => wide (lines.place line + 1 + d)) (count + 1 - (lines.place line + 1))
        0 0).map (fun (d, found) => (lines.place line + 1 + d, found)) =
      ((seek number entering pausing (fun d => read (line + 1 + d)) (count - (line + 1)) 0 0).map
        fun (d, found) => (line + 1 + d, found)).map (Prod.map lines.place id) := by
  rw [Option.map_map]
  rcases Nat.lt_or_ge line lines.start with above | below
  · rw [Gap.place_of_lt above]
    have walk := @seek_gap number entering pausing (fun d => read (line + 1 + d)) (fun d => wide (line + 1 + d))
      (lines.start - (line + 1)) (count - (line + 1)) (count + 1 - (line + 1)) 0 (by omega)
      (opens.empty _ (by omega) (by omega)) (Nat.zero_le _) (by omega)
      (fun d hd => by rw [← opens.moved, Gap.place_of_lt (by omega)])
      (fun d hl hr => by
        rw [← opens.moved, Gap.place_of_le (by omega), single]
        rfl) 0
    rw [walk, Option.map_map]
    refine Option.map_congr fun result _ => ?_
    simp only [Function.comp_apply, Prod.map, Gap.place, single, id]
    congr 1
    split <;> split <;> omega
  · have further : ∀ d, lines.place (line + 1 + d) = line + 1 + 1 + d := fun d => by
      rw [Gap.place_of_le (by omega), single]
      omega
    have reads : (fun d => wide (line + 1 + 1 + d)) = fun d => read (line + 1 + d) :=
      funext fun d => by rw [← opens.moved, further]
    have room : count + 1 - (line + 1 + 1) = count - (line + 1) := by omega
    rw [Gap.place_of_le below, single, reads, room]
    exact Option.map_congr fun result _ => by simp [further]

end

end

end Block

end Counterpart
