import Counterpart.Text
import Mathlib.Order.Monotone.Basic

/-! A text whose line breaks are widened: each line feed gets a carriage return before it. -/

namespace Counterpart

namespace Units

def widen (us : Units) : Units := us.flatMap fun u => if u = lineFeed then [carriageReturn, lineFeed] else [u]

def place (us : Units) (o : Nat) : Nat := o + (us.take o).count lineFeed

@[simp] lemma widen_nil : widen [] = [] := rfl

@[simp] lemma widen_lineFeed (us : Units) : widen (lineFeed :: us) = carriageReturn :: lineFeed :: widen us := rfl

lemma widen_cons {u : UInt16} (h : u ≠ lineFeed) (us : Units) : widen (u :: us) = u :: widen us := by
  rw [widen, List.flatMap_cons, if_neg h]
  rfl

lemma widen_append (us vs : Units) : widen (us ++ vs) = widen us ++ widen vs := List.flatMap_append

lemma length_widen (us : Units) : (widen us).length = us.length + us.count lineFeed := by
  induction us with
  | nil => rfl
  | cons u us ih =>
    by_cases hu : u = lineFeed
    · rw [hu, widen_lineFeed, List.count_cons_self]
      simp only [List.length_cons, ih]
      omega
    · rw [widen_cons hu, List.count_cons_of_ne hu, List.length_cons, List.length_cons, ih]
      omega

lemma widen_eq_self {us : Units} (h : lineFeed ∉ us) : widen us = us := by
  induction us with
  | nil => rfl
  | cons u us ih =>
    rw [List.mem_cons, not_or] at h
    rw [widen_cons (Ne.symm h.1), ih h.2]

lemma count_widen (us : Units) : (widen us).count lineFeed = us.count lineFeed := by
  induction us with
  | nil => rfl
  | cons u us ih =>
    by_cases hu : u = lineFeed
    · rw [hu, widen_lineFeed, List.count_cons_of_ne (by decide), List.count_cons_self, List.count_cons_self, ih]
    · rw [widen_cons hu, List.count_cons_of_ne hu, List.count_cons_of_ne hu, ih]

lemma lineFeed_mem_widen {us : Units} : lineFeed ∈ widen us ↔ lineFeed ∈ us := by
  rw [← List.count_pos_iff, count_widen, List.count_pos_iff]

@[simp] lemma place_zero (us : Units) : place us 0 = 0 := rfl

lemma place_eq_length {us : Units} {o : Nat} (h : o ≤ us.length) : place us o = (widen (us.take o)).length := by
  rw [place, length_widen, List.length_take, Nat.min_eq_left h]

lemma place_length (us : Units) : place us us.length = (widen us).length := by
  rw [place_eq_length (Nat.le_refl _), List.take_length]

lemma place_strictMono (us : Units) : StrictMono (place us) := by
  intro a b h
  have hc : (us.take a).count lineFeed ≤ (us.take b).count lineFeed :=
    (List.take_sublist_take_left (Nat.le_of_lt h)).count_le _
  rw [place, place]
  omega

lemma place_succ {us : Units} {o : Nat} {u : UInt16} (h : us[o]? = some u) :
    place us (o + 1) = place us o + if u = lineFeed then 2 else 1 := by
  rw [place, place, List.take_add_one, h, List.count_append]
  by_cases hu : u = lineFeed
  · simp [hu]
    omega
  · simp [hu]
    omega

lemma place_cons (u : UInt16) (us : Units) (o : Nat) :
    place (u :: us) (o + 1) = (if u = lineFeed then 2 else 1) + place us o := by
  rw [place, place, List.take_succ_cons, List.count_cons]
  by_cases hu : u = lineFeed
  · simp [hu]
    omega
  · simp [hu]
    omega

lemma widen_eq_take_append (us : Units) (o : Nat) : widen us = widen (us.take o) ++ widen (us.drop o) := by
  rw [← widen_append, List.take_append_drop]

lemma take_place {us : Units} {o : Nat} (h : o ≤ us.length) :
    (widen us).take (place us o) = widen (us.take o) := by
  rw [place_eq_length h, widen_eq_take_append us o, List.take_left]

lemma drop_place {us : Units} {o : Nat} (h : o ≤ us.length) :
    (widen us).drop (place us o) = widen (us.drop o) := by
  rw [place_eq_length h, widen_eq_take_append us o, List.drop_left]

lemma getElem?_place {us : Units} {o : Nat} {u : UInt16} (h : us[o]? = some u) (hu : u ≠ lineFeed) :
    (widen us)[place us o]? = some u := by
  obtain ⟨ho, he⟩ := List.getElem?_eq_some_iff.mp h
  rw [← List.head?_drop, drop_place (Nat.le_of_lt ho), List.drop_eq_getElem_cons ho, he, widen_cons hu]
  rfl

lemma getElem?_place_lineFeed {us : Units} {o : Nat} (h : us[o]? = some lineFeed) :
    (widen us)[place us o]? = some carriageReturn ∧ (widen us)[place us o + 1]? = some lineFeed := by
  obtain ⟨ho, he⟩ := List.getElem?_eq_some_iff.mp h
  have hd : (widen us).drop (place us o) = carriageReturn :: lineFeed :: widen (us.drop (o + 1)) := by
    rw [drop_place (Nat.le_of_lt ho), List.drop_eq_getElem_cons ho, he, widen_lineFeed]
  constructor
  · rw [← List.head?_drop, hd]
    rfl
  · rw [← List.getElem?_drop, hd]
    rfl

lemma exists_place {us : Units} {p : Nat} (h : p ≤ (widen us).length) :
    ∃ o ≤ us.length, p = place us o ∨ us[o]? = some lineFeed ∧ p = place us o + 1 := by
  induction us generalizing p with
  | nil =>
    obtain rfl := Nat.le_zero.mp h
    exact ⟨0, Nat.le_refl _, .inl rfl⟩
  | cons u us ih =>
    by_cases hu : u = lineFeed
    · subst hu
      rcases p with _ | _ | p
      · exact ⟨0, Nat.zero_le _, .inl rfl⟩
      · exact ⟨0, Nat.zero_le _, .inr ⟨rfl, rfl⟩⟩
      · obtain ⟨o, ho, hp⟩ := ih (Nat.le_of_succ_le_succ (Nat.le_of_succ_le_succ h))
        refine ⟨o + 1, Nat.succ_le_succ ho, ?_⟩
        rw [place_cons, if_pos rfl]
        rcases hp with rfl | ⟨hf, rfl⟩
        · exact .inl (by omega)
        · exact .inr ⟨hf, by omega⟩
    · rcases p with _ | p
      · exact ⟨0, Nat.zero_le _, .inl rfl⟩
      · rw [widen_cons hu] at h
        obtain ⟨o, ho, hp⟩ := ih (Nat.le_of_succ_le_succ h)
        refine ⟨o + 1, Nat.succ_le_succ ho, ?_⟩
        rw [place_cons, if_neg hu]
        rcases hp with rfl | ⟨hf, rfl⟩
        · exact .inl (by omega)
        · exact .inr ⟨hf, by omega⟩

end Units

namespace Text

def widen (text : Text) : Text := ofUnits text.toUnits.widen

def place (text : Text) (offset : Int) : Int := offset + ((text.toUnits.take offset.toNat).count lineFeed : Nat)

lemma place_natCast (text : Text) (o : Nat) : text.place o = (text.toUnits.place o : Nat) := by
  rw [place, Units.place, Int.toNat_natCast]
  omega

lemma place_of_nonpos (text : Text) {offset : Int} (h : offset ≤ 0) : text.place offset = offset := by
  rw [place, Int.toNat_of_nonpos h]
  simp

lemma place_le_place_iff (text : Text) {a b : Int} : text.place a ≤ text.place b ↔ a ≤ b := by
  have mono : StrictMono text.place := by
    intro a b h
    have hc : (text.toUnits.take a.toNat).count lineFeed ≤ (text.toUnits.take b.toNat).count lineFeed :=
      (List.take_sublist_take_left (by omega)).count_le _
    rw [place, place]
    omega
  exact mono.le_iff_le

lemma place_lt_place_iff (text : Text) {a b : Int} : text.place a < text.place b ↔ a < b := by
  rw [← Int.not_le, ← Int.not_le, place_le_place_iff]

end Text

end Counterpart
