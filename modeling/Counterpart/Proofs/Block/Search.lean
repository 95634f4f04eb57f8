import Counterpart.Block.Search
import Counterpart.Proofs.Bracket.Pairing

/-! Opening and closing lines of a block nest like brackets of one shape, and its middle lines do not count. -/

namespace Counterpart

open Counterpart.Bracket Delimiter

def LineKeyword.bracket? (number : Nat) (keyword : LineKeyword) : Option Bracket :=
  if keyword.block = number then
    match keyword.role with
    | .opening => some ⟨.round, true⟩
    | .middle => none
    | .closing => some ⟨.round, false⟩
  else none

namespace Block

def brackets (number : Nat) (read : Nat → Option LineKeyword) (place : Nat) : Option Bracket :=
  (read place).bind (LineKeyword.bracket? number)

lemma brackets_eq {number place : Nat} {read : Nat → Option LineKeyword} {keyword : LineKeyword}
    (h : read place = some keyword) : brackets number read place = keyword.bracket? number := by
  rw [brackets, h, Option.bind_some]

lemma seek_eq_balanced (number : Nat) (forward : Bool) (read : Nat → Option LineKeyword)
    (room distance depth : Nat) :
    seek number (if forward then .opening else .closing) false (fun e => read (e + 1)) room distance depth =
      (balanced forward (brackets number read) (List.replicate (depth + 1) .round) room
        (distance + 1)).bind fun d =>
        (read d).map fun found => (d - 1, found) := by
  induction room generalizing distance depth with
  | zero => rfl
  | succ room ih =>
    have next := ih (distance + 1)
    rw [seek, balanced]
    cases hr : read (distance + 1) with
    | none =>
      rw [brackets, hr]
      exact next depth
    | some keyword =>
      obtain ⟨block, role⟩ := keyword
      rw [brackets_eq hr]
      by_cases hb : block = number
      · subst hb
        simp only [ne_eq, not_true_eq_false, if_false, Bool.false_and]
        by_cases he : role = if forward then .opening else .closing
        · have hk : LineKeyword.bracket? block ⟨block, role⟩ = some ⟨.round, forward⟩ := by
            cases forward <;> simp [LineKeyword.bracket?, he]
          rw [if_pos he, hk]
          simpa [List.replicate_succ] using next (depth + 1)
        · rw [if_neg he]
          by_cases hm : role = .middle
          · have hk : LineKeyword.bracket? block ⟨block, role⟩ = none := by simp [LineKeyword.bracket?, hm]
            rw [if_pos hm, hk]
            simpa using next depth
          · have hk : LineKeyword.bracket? block ⟨block, role⟩ = some ⟨.round, !forward⟩ := by
              cases forward <;> cases role <;> simp_all [LineKeyword.bracket?]
            rw [if_neg hm, hk]
            cases depth with
            | zero => simp [hr]
            | succ depth => simpa [List.replicate_succ] using next depth
      · simpa [LineKeyword.bracket?, hb] using next depth

lemma seek_eq_some_iff (number : Nat) (forward : Bool) (read : Nat → Option LineKeyword) (room e : Nat)
    (found : LineKeyword) :
    seek number (if forward then .opening else .closing) false (fun e => read (e + 1)) room 0 0 =
      some (e, found) ↔
      balanced forward (brackets number read) [.round] room 1 = some (e + 1) ∧ read (e + 1) = some found := by
  rw [seek_eq_balanced number forward read room 0 0, Option.bind_eq_some_iff]
  constructor
  · rintro ⟨d, hd, hm⟩
    obtain ⟨found', hf, he⟩ := Option.map_eq_some_iff.mp hm
    obtain ⟨rfl, rfl⟩ := Prod.mk.inj he
    have hb := (balanced_bounds hd).1
    rw [Nat.sub_add_cancel hb]
    exact ⟨hd, hf⟩
  · rintro ⟨hd, hf⟩
    refine ⟨e + 1, hd, ?_⟩
    rw [hf]
    rfl

lemma seek_map_eq_some_iff {number room c : Nat} {forward : Bool} {read : Nat → Option LineKeyword}
    (place : Nat → Nat)
    (hstart : brackets number read (place 0) = some ⟨.round, forward⟩) (found : LineKeyword) :
    ((seek number (if forward then .opening else .closing) false (fun e => read (place (e + 1))) room 0 0).map
        fun (e, found) => (place (e + 1), found)) = some (c, found) ↔
      (balanced forward (fun e => brackets number read (place e)) [] (room + 1) 0).map place = some c ∧
        read c = some found := by
  have hseek := fun e => seek_eq_some_iff number forward (fun e => read (place e)) room e found
  rw [balanced_start ⟨.round, forward⟩ _ room hstart, Option.map_eq_some_iff, Option.map_eq_some_iff]
  constructor
  · rintro ⟨⟨e, found'⟩, hs, he⟩
    obtain ⟨rfl, rfl⟩ := Prod.mk.inj he
    obtain ⟨hb, hf⟩ := (hseek e).mp hs
    exact ⟨⟨e + 1, hb, rfl⟩, hf⟩
  · rintro ⟨⟨d, hb, rfl⟩, hf⟩
    have hd : d ≠ 0 := Nat.ne_zero_of_lt (balanced_bounds hb).1
    obtain ⟨e, rfl⟩ := Nat.exists_eq_add_one_of_ne_zero hd
    exact ⟨(e, found), (hseek e).mpr ⟨hb, hf⟩, rfl⟩

/-- Where a walk may stop: within its room, at a line of its own block that opens no further one, and at a
middle line only if it pauses there. -/
structure Stop (number : Nat) (entering : Role) (pausing : Bool) (read : Nat → Option LineKeyword)
    (room distance d : Nat) (keyword : LineKeyword) : Prop where
  le : distance ≤ d
  lt : d < distance + room
  reads : read d = some keyword
  block : keyword.block = number
  role : keyword.role ≠ entering
  pauses : keyword.role = .middle → pausing = true

section

variable {number room distance depth d : Nat} {entering : Role} {pausing : Bool}
  {read : Nat → Option LineKeyword} {keyword : LineKeyword}

lemma Stop.further (h : Stop number entering pausing read room (distance + 1) d keyword) :
    Stop number entering pausing read (room + 1) distance d keyword := by
  obtain ⟨hl, hd, hr, hb, he, hp⟩ := h
  exact ⟨by omega, by omega, hr, hb, he, hp⟩

lemma seek_sound (h : seek number entering pausing read room distance depth = some (d, keyword)) :
    Stop number entering pausing read room distance d keyword := by
  induction room generalizing distance depth with
  | zero => simp [seek] at h
  | succ room ih =>
    rw [seek] at h
    cases hr : read distance with
    | none =>
      rw [hr] at h
      exact (ih h).further
    | some found =>
      simp only [hr] at h
      by_cases hb : found.block = number
      · rw [if_neg (not_not_intro hb)] at h
        by_cases he : found.role = entering
        · rw [if_pos he] at h
          exact (ih h).further
        · have here : (found.role = .middle → pausing = true) → some (distance, found) = some (d, keyword) →
              Stop number entering pausing read (room + 1) distance d keyword := by
            intro hp heq
            obtain ⟨rfl, rfl⟩ := Prod.mk.inj (Option.some.inj heq)
            exact ⟨Nat.le_refl _, by omega, hr, hb, he, hp⟩
          rw [if_neg he] at h
          split at h <;> split at h
          · next hp => exact here (fun _ => (Bool.and_eq_true_iff.mp hp).1) h
          · exact (ih h).further
          · next hm _ => exact here (fun hmiddle => absurd hmiddle hm) h
          · exact (ih h).further
      · rw [if_pos hb] at h
        exact (ih h).further

lemma seek_closes (h : seek number .opening true read room distance depth = some (d, keyword)) :
    Closes (List.replicate depth .round) (span (brackets number read) distance d) := by
  induction room generalizing distance depth with
  | zero => simp [seek] at h
  | succ room ih =>
    have skip : brackets number read distance = none →
        seek number .opening true read room (distance + 1) depth = some (d, keyword) →
        Closes (List.replicate depth .round) (span (brackets number read) distance d) := by
      intro hb hs
      rw [span_skip _ (seek_sound hs).le hb]
      exact ih hs
    have here : depth = 0 → distance = d →
        Closes (List.replicate depth .round) (span (brackets number read) distance d) := by
      rintro rfl rfl
      rw [span_self]
      exact .nil
    rw [seek] at h
    cases hr : read distance with
    | none =>
      rw [hr] at h
      exact skip (by rw [brackets, hr]; rfl) h
    | some found =>
      obtain ⟨block, role⟩ := found
      have hk : brackets number read distance = LineKeyword.bracket? number ⟨block, role⟩ := brackets_eq hr
      by_cases hb : block = number
      · subst hb
        simp only [hr, ne_eq, not_true_eq_false, if_false, Bool.true_and, decide_eq_true_eq] at h
        cases role with
        | opening =>
          have hround : brackets block read distance = some ⟨.round, true⟩ := by
            rw [hk]; simp [LineKeyword.bracket?]
          rw [span_cons _ (seek_sound h).le hround, closes_opening]
          exact ih h
        | middle =>
          have hnone : brackets block read distance = none := by rw [hk]; simp [LineKeyword.bracket?]
          rw [if_neg (by decide), if_pos rfl] at h
          split at h
          · next hz => exact here hz (congrArg Prod.fst (Option.some.inj h))
          · exact skip hnone h
        | closing =>
          have hround : brackets block read distance = some ⟨.round, false⟩ := by
            rw [hk]; simp [LineKeyword.bracket?]
          rw [if_neg (by decide), if_neg (by decide)] at h
          cases depth with
          | zero => exact here rfl (congrArg Prod.fst (Option.some.inj h))
          | succ depth =>
            rw [span_cons _ (seek_sound h).le hround]
            exact (closes_closing .round .round _ _).mpr ⟨rfl, ih h⟩
      · simp only [hr, ne_eq, hb, not_false_eq_true, if_true] at h
        exact skip (by rw [hk]; simp [LineKeyword.bracket?, hb]) h

end

variable {blocks : List Block} {scene : Scene}

lemma partnerOfLine?_pausing {line next : Nat} {keyword found : LineKeyword} (placing : scene.selecting = false)
    (hr : keyword.role ≠ .closing) (h : partnerOfLine? blocks scene line keyword = some (next, found)) :
    line < next ∧ keywordOfLine? blocks scene next = some found ∧ found.block = keyword.block ∧
      found.role ≠ .opening ∧
      WellBracketed (span (brackets keyword.block (keywordOfLine? blocks scene)) (line + 1) next) := by
  rw [partnerOfLine?, if_neg hr, placing] at h
  obtain ⟨⟨d, keyword'⟩, hs, he⟩ := Option.map_eq_some_iff.mp h
  obtain ⟨rfl, rfl⟩ := Prod.mk.inj he
  have stop := seek_sound hs
  refine ⟨by omega, stop.reads, stop.block, stop.role, ?_⟩
  have hc := seek_closes hs
  have hshift := span_shift (brackets keyword.block (keywordOfLine? blocks scene)) (line + 1) 0 d
  rw [Nat.add_zero] at hshift
  rw [← hshift]
  exact hc

lemma partnerOfLine?_closing {line o : Nat} {keyword found : LineKeyword}
    (hk : keywordOfLine? blocks scene line = some keyword) (hr : keyword.role = .closing) :
    partnerOfLine? blocks scene line keyword = some (o, found) ↔
      Paired (brackets keyword.block (keywordOfLine? blocks scene)) o line ∧
        keywordOfLine? blocks scene o = some found := by
  have hline : brackets keyword.block (keywordOfLine? blocks scene) line = some ⟨.round, false⟩ := by
    rw [brackets_eq hk]
    simp [LineKeyword.bracket?, hr]
  have hplace : ∀ e, line - 1 - e = line - (e + 1) := by omega
  rw [partnerOfLine?, if_pos hr]
  simp only [hplace]
  rw [← balanced_map_closing _ hline]
  exact seek_map_eq_some_iff (line - ·) hline found

end Block

end Counterpart
