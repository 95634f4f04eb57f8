import Counterpart.Proofs.LineBreak.Text
import Counterpart.Proofs.Text.Find

namespace Counterpart

namespace Units

def Unbroken (us : Units) : Prop := lineFeed ∉ us ∧ carriageReturn ∉ us

instance (us : Units) : Decidable us.Unbroken := inferInstanceAs (Decidable (_ ∧ _))

lemma Unbroken.tail {u : UInt16} {us : Units} (h : Unbroken (u :: us)) : us.Unbroken :=
  ⟨fun hm => h.1 (List.mem_cons_of_mem u hm), fun hm => h.2 (List.mem_cons_of_mem u hm)⟩

lemma Unbroken.head_ne {u : UInt16} {us : Units} (h : Unbroken (u :: us)) :
    u ≠ lineFeed ∧ u ≠ carriageReturn := by
  constructor
  · rintro rfl
    exact h.1 List.mem_cons_self
  · rintro rfl
    exact h.2 List.mem_cons_self

lemma isPrefixOf_cons_of_ne {word : Units} (h : word.Unbroken) (nonempty : word ≠ []) {u : UInt16}
    (hu : u = lineFeed ∨ u = carriageReturn) (us : Units) : word.isPrefixOf (u :: us) = false := by
  cases word with
  | nil => contradiction
  | cons w word =>
    have hw : w ≠ u := by
      rcases hu with rfl | rfl
      · exact h.head_ne.1
      · exact h.head_ne.2
    rw [List.isPrefixOf_cons_cons, beq_false_of_ne hw, Bool.false_and]

lemma isPrefixOf_widen {word : Units} (h : word.Unbroken) (us : Units) :
    word.isPrefixOf (widen us) = word.isPrefixOf us := by
  induction word generalizing us with
  | nil => simp
  | cons w word ih =>
    cases us with
    | nil => rfl
    | cons u us =>
      by_cases hu : u = lineFeed
      · rw [hu, widen_lineFeed, isPrefixOf_cons_of_ne h (by simp) (.inr rfl),
          isPrefixOf_cons_of_ne h (by simp) (.inl rfl)]
      · rw [widen_cons hu, List.isPrefixOf_cons_cons, List.isPrefixOf_cons_cons, ih h.tail]

lemma find?_widen {word : Units} (h : word.Unbroken) (us : Units) :
    find? word (widen us) = (find? word us).map (place us) := by
  induction us with
  | nil => cases word <;> rfl
  | cons u us ih =>
    by_cases hp : word.isPrefixOf (u :: us) = true
    · rw [find?_of_isPrefixOf hp, find?_of_isPrefixOf ((isPrefixOf_widen h _).trans hp)]
      rfl
    · have moved : ∀ n, place (u :: us) (1 + n) = (if u = lineFeed then 2 else 1) + place us n := fun n => by
        rw [Nat.add_comm, place_cons]
      have hw := isPrefixOf_widen h (u :: us)
      rw [find?_cons, if_neg hp, Option.map_map]
      by_cases hu : u = lineFeed
      · subst hu
        have nonempty : word ≠ [] := fun he => hp (he ▸ rfl)
        rw [widen_lineFeed] at hw ⊢
        rw [find?_cons, hw, if_neg hp, find?_cons, isPrefixOf_cons_of_ne h nonempty (.inl rfl),
          if_neg Bool.false_ne_true, ih, Option.map_map, Option.map_map]
        congr 1
        funext n
        simp only [Function.comp_apply, moved, if_true]
        omega
      · rw [widen_cons hu] at hw ⊢
        rw [find?_cons, hw, if_neg hp, ih, Option.map_map]
        congr 1
        funext n
        simp only [Function.comp_apply, moved, if_neg hu]

lemma place_append_length (us vs : Units) : place (us ++ vs) us.length = (widen us).length := by
  rw [place, length_widen, List.take_left]

end Units

end Counterpart
