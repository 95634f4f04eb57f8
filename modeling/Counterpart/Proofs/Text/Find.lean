import Counterpart.Text
import Mathlib.Tactic.Lemma

namespace Counterpart

namespace Units

lemma isPrefixOf_append {word us : Units} (h : word.isPrefixOf us = true) (rest : Units) :
    word.isPrefixOf (us ++ rest) = true := by
  rw [List.isPrefixOf_iff_prefix] at h ⊢
  exact h.trans (List.prefix_append us rest)

lemma isPrefixOf_of_append {word us rest : Units} (h : word.isPrefixOf (us ++ rest) = true)
    (hl : word.length ≤ us.length) : word.isPrefixOf us = true := by
  rw [List.isPrefixOf_iff_prefix] at h ⊢
  exact List.prefix_of_prefix_length_le h (List.prefix_append us rest) hl

lemma findFrom_empty (offset : Nat) (us : Units) : findFrom [] offset us = some offset := by
  cases us <;> rfl

lemma findFrom_bound {word us : Units} {offset n : Nat} (h : findFrom word offset us = some n) :
    offset ≤ n ∧ n + word.length ≤ offset + us.length := by
  induction us generalizing offset with
  | nil =>
    rw [findFrom] at h
    split at h
    · next he =>
      obtain rfl := Option.some.inj h
      simp [List.isEmpty_iff.mp he]
    · contradiction
  | cons u us ih =>
    rw [findFrom] at h
    split at h
    · next hp =>
      obtain rfl := Option.some.inj h
      have hl := (List.isPrefixOf_iff_prefix.mp hp).length_le
      exact ⟨Nat.le_refl _, Nat.add_le_add_left hl _⟩
    · have hb := ih h
      simp only [List.length_cons]
      omega

lemma findFrom_append {word us : Units} {offset n : Nat} (rest : Units)
    (hn : n + word.length ≤ offset + us.length) :
    findFrom word offset (us ++ rest) = some n ↔ findFrom word offset us = some n := by
  induction us generalizing offset with
  | nil =>
    have hw : offset ≤ n → word = [] := fun hl => List.eq_nil_of_length_eq_zero (by simp at hn; omega)
    constructor <;> intro h <;> obtain rfl := hw (findFrom_bound h).1 <;> simpa [findFrom_empty] using h
  | cons u us ih =>
    simp only [List.length_cons] at hn
    rw [List.cons_append, findFrom, findFrom, ← List.cons_append]
    by_cases hp : word.isPrefixOf (u :: us) = true
    · rw [if_pos hp, if_pos (isPrefixOf_append hp rest)]
    · rw [if_neg hp]
      split
      · next hq =>
        have hl : us.length + 1 < word.length :=
          Nat.lt_of_not_le fun hl => hp (isPrefixOf_of_append hq hl)
        constructor
        · intro h
          obtain rfl := Option.some.inj h
          omega
        · intro h
          have hb := (findFrom_bound h).1
          omega
      · exact ih (by omega)

lemma find?_bound {word us : Units} {n : Nat} (h : find? word us = some n) : n + word.length ≤ us.length := by
  simpa using (findFrom_bound h).2

lemma find?_append {word us : Units} {n : Nat} (rest : Units) (hn : n + word.length ≤ us.length) :
    find? word (us ++ rest) = some n ↔ find? word us = some n :=
  findFrom_append rest (by simpa using hn)

lemma find?_append_of_some {word us : Units} {n : Nat} (h : find? word us = some n) (rest : Units) :
    find? word (us ++ rest) = some n :=
  (find?_append rest (find?_bound h)).mpr h

lemma findFrom_eq (word : Units) (offset : Nat) (us : Units) :
    findFrom word offset us = (find? word us).map (offset + ·) := by
  rw [find?]
  induction us generalizing offset with
  | nil =>
    rw [findFrom, findFrom]
    split <;> rfl
  | cons u us ih =>
    rw [findFrom, findFrom]
    split
    · rfl
    · rw [ih, ih 1, Option.map_map]
      congr 1
      funext n
      simp only [Function.comp_apply]
      omega

lemma find?_cons (word : Units) (u : UInt16) (us : Units) :
    find? word (u :: us) = if word.isPrefixOf (u :: us) then some 0 else (find? word us).map (1 + ·) := by
  rw [find?, findFrom, findFrom_eq]

lemma find?_of_isPrefixOf {word us : Units} (h : word.isPrefixOf us = true) : find? word us = some 0 := by
  cases us with
  | nil =>
    obtain rfl := List.prefix_nil.mp (List.isPrefixOf_iff_prefix.mp h)
    rfl
  | cons u us => rw [find?_cons, if_pos h]

lemma eq_append_of_find? {word us : Units} {n : Nat} (h : find? word us = some n) :
    ∃ body rest, us = body ++ word ++ rest ∧ body.length = n := by
  induction us generalizing n with
  | nil =>
    cases word with
    | nil => exact ⟨[], [], rfl, Option.some.inj h⟩
    | cons w word => contradiction
  | cons u us ih =>
    rw [find?_cons] at h
    split at h
    · next hp =>
      obtain ⟨rest, hr⟩ := List.isPrefixOf_iff_prefix.mp hp
      exact ⟨[], rest, hr.symm, Option.some.inj h⟩
    · obtain ⟨m, hm, rfl⟩ := Option.map_eq_some_iff.mp h
      obtain ⟨body, rest, rfl, rfl⟩ := ih hm
      refine ⟨u :: body, rest, rfl, ?_⟩
      rw [List.length_cons, Nat.add_comm]

lemma find?_singleton (u : UInt16) (us : Units) : find? [u] us = us.idxOf? u := by
  induction us with
  | nil => rfl
  | cons v us ih =>
    rw [find?_cons, List.idxOf?_cons, ih]
    by_cases hu : v = u
    · simp [hu]
    · simp [hu, Ne.symm hu, Nat.add_comm]

end Units

end Counterpart
