import Counterpart.Proofs.Text.Find
import Counterpart.Token

/-! The token at the head of a text does not depend on what stands behind its end. -/

namespace Counterpart

def Lexicon.MarkersInline (lex : Lexicon) : Prop := ∀ marker ∈ lex.lineComments, lineFeed ∉ marker

instance (lex : Lexicon) : Decidable lex.MarkersInline :=
  inferInstanceAs (Decidable (∀ marker ∈ lex.lineComments, lineFeed ∉ marker))

namespace Token

open Counterpart.Units

lemma not_begins_of_append {word us rest : Units} (h : ¬ (!word.isEmpty && word.isPrefixOf (us ++ rest)) = true) :
    ¬ (!word.isEmpty && word.isPrefixOf us) = true := by
  intro hp
  rw [Bool.and_eq_true] at hp
  apply h
  rw [hp.1, isPrefixOf_append hp.2, Bool.and_self]

lemma blockCommentOf?_append_none {us rest : Units} {pairs : List (Units × Units)}
    (h : blockCommentOf? (us ++ rest) pairs = none) : blockCommentOf? us pairs = none := by
  induction pairs with
  | nil => rfl
  | cons pair pairs ih =>
    obtain ⟨opener, closer⟩ := pair
    simp only [blockCommentOf?] at h ⊢
    split at h
    · contradiction
    · next ho =>
      rw [if_neg (not_begins_of_append ho)]
      exact ih h

lemma blockCommentOf?_append_some {us rest : Units} {pairs : List (Units × Units)} {token : Token}
    (h : blockCommentOf? (us ++ rest) pairs = some token) (hl : token.length ≤ us.length) :
    blockCommentOf? us pairs = some token := by
  induction pairs with
  | nil => contradiction
  | cons pair pairs ih =>
    obtain ⟨opener, closer⟩ := pair
    simp only [blockCommentOf?] at h ⊢
    split at h
    · next ho =>
      rw [Bool.and_eq_true] at ho
      obtain rfl := Option.some.inj h
      have hlen : opener.length ≤ us.length := by
        split at hl <;> simp only [length] at hl <;> omega
      rw [ho.1, isPrefixOf_of_append ho.2 hlen, Bool.and_self, if_pos rfl]
      rw [List.drop_append_of_le_length hlen] at hl ⊢
      cases hf : find? closer (us.drop opener.length ++ rest) with
      | some n =>
        simp only [hf, length] at hl
        rw [(find?_append rest (by rw [List.length_drop]; omega)).mp hf]
      | none =>
        simp only [hf, length, List.length_append, List.length_drop] at hl
        obtain rfl : rest = [] := List.eq_nil_of_length_eq_zero (by omega)
        rw [List.append_nil] at hf ⊢
        rw [hf]
    · next ho =>
      rw [if_neg (not_begins_of_append ho)]
      exact ih h

lemma takeWhile_append_length (p : UInt16 → Bool) (us rest : Units)
    (h : ((us ++ rest).takeWhile p).length ≤ us.length) : (us ++ rest).takeWhile p = us.takeWhile p := by
  rw [List.takeWhile_append] at h ⊢
  split at h
  · next he =>
    rw [if_pos he]
    simp only [List.length_append] at h
    rw [List.eq_nil_of_length_eq_zero (by omega : (rest.takeWhile p).length = 0), List.append_nil]
    exact ((List.takeWhile_prefix p).eq_of_length he).symm
  · next he => rw [if_neg he]

lemma lineCommentOf?_append_none {us rest : Units} {markers : List Units}
    (h : lineCommentOf? (us ++ rest) markers = none) : lineCommentOf? us markers = none := by
  induction markers with
  | nil => rfl
  | cons marker markers ih =>
    simp only [lineCommentOf?] at h ⊢
    split at h
    · contradiction
    · next ho =>
      rw [if_neg (not_begins_of_append ho)]
      exact ih h

lemma length_le_takeWhile {marker us : Units} (h : marker.isPrefixOf us = true) (inline : lineFeed ∉ marker) :
    marker.length ≤ (us.takeWhile (· != lineFeed)).length := by
  obtain ⟨rest, rfl⟩ := List.isPrefixOf_iff_prefix.mp h
  have ha : ∀ u ∈ marker, (u != lineFeed) = true := by
    intro u hu
    exact bne_iff_ne.mpr fun he => inline (he ▸ hu)
  rw [List.takeWhile_append_of_pos ha, List.length_append]
  exact Nat.le_add_right _ _

lemma lineCommentOf?_append_some {us rest : Units} {markers : List Units} {token : Token}
    (inline : ∀ marker ∈ markers, lineFeed ∉ marker)
    (h : lineCommentOf? (us ++ rest) markers = some token) (hl : token.length ≤ us.length) :
    lineCommentOf? us markers = some token := by
  induction markers with
  | nil => contradiction
  | cons marker markers ih =>
    simp only [lineCommentOf?] at h ⊢
    split at h
    · next ho =>
      rw [Bool.and_eq_true] at ho
      obtain rfl := Option.some.inj h
      simp only [length] at hl
      have hm := length_le_takeWhile ho.2 (inline marker List.mem_cons_self)
      have ht := takeWhile_append_length (· != lineFeed) us rest (by omega)
      rw [ht] at hl hm ⊢
      rw [ho.1, isPrefixOf_of_append ho.2 (by omega), Bool.and_self, if_pos rfl]
    · next ho =>
      rw [if_neg (not_begins_of_append ho)]
      exact ih (fun m hm => inline m (List.mem_cons_of_mem _ hm)) h

lemma stringLength_cons (lex : Lexicon) (quote : UInt16) (read : Nat) (u : UInt16) (us : Units) :
    stringLength lex quote read (u :: us) =
      if u == quote then read + 1
      else if u == lineFeed && !lex.isMultiline quote then read
      else if lex.isEscape u then
        match us with
        | [] => read + 1
        | _ :: us => stringLength lex quote (read + 2) us
      else stringLength lex quote (read + 1) us := by
  cases us <;> rfl

lemma stringLength_append (lex : Lexicon) (quote : UInt16) (read : Nat) (us rest : Units)
    (h : stringLength lex quote read (us ++ rest) ≤ read + us.length) :
    stringLength lex quote read (us ++ rest) = stringLength lex quote read us := by
  fun_induction stringLength lex quote read us with
  | case1 read =>
    have hl := le_stringLength lex quote read rest
    exact Nat.le_antisymm h hl
  | case2 read u us hq => rw [List.cons_append, stringLength_cons, if_pos hq]
  | case3 read u us hq hf => rw [List.cons_append, stringLength_cons, if_neg hq, if_pos hf]
  | case4 read u hq hf he =>
    rw [List.cons_append, stringLength_cons, if_neg hq, if_neg hf, if_pos he] at h ⊢
    cases rest with
    | nil => rfl
    | cons v rest =>
      have hl := le_stringLength lex quote (read + 2) rest
      simp only [List.nil_append, List.length_singleton] at h
      omega
  | case5 read u hq hf he v us ih =>
    rw [List.cons_append, stringLength_cons, if_neg hq, if_neg hf, if_pos he] at h ⊢
    simp only [List.cons_append, List.length_cons] at h ⊢
    exact ih (by omega)
  | case6 read u us hq hf he ih =>
    rw [List.cons_append, stringLength_cons, if_neg hq, if_neg hf, if_neg he] at h ⊢
    simp only [List.length_cons] at h
    exact ih (by omega)

lemma three_le_characterLength? {lex : Lexicon} {quote : UInt16} {us : Units} {n : Nat}
    (h : characterLength? lex quote us = some n) : 3 ≤ n := by
  rw [characterLength?] at h
  split at h
  · split at h
    · contradiction
    · split at h
      · contradiction
      · have hn := Option.some.inj h
        omega
  · split at h
    · exact Nat.le_of_eq (Option.some.inj h)
    · contradiction

lemma characterLength?_eq_none_of_short {lex : Lexicon} {quote : UInt16} {us : Units} {n : Nat}
    (hn : n ≤ 2) (h : ∀ m, characterLength? lex quote us = some m → m ≤ n) :
    characterLength? lex quote us = none := by
  cases hc : characterLength? lex quote us with
  | none => rfl
  | some m =>
    have hm := three_le_characterLength? hc
    have hl := h m hc
    omega

section

variable {lex : Lexicon} {quote v : UInt16} (escape : lex.isEscape v = true)
include escape

lemma characterLength?_unclosed {w : UInt16} {us : Units} (h : find? [quote] us = none) :
    characterLength? lex quote (v :: w :: us) = none := by
  rw [characterLength?, List.head?_cons, Option.any_some, if_pos escape, List.drop_succ_cons,
    List.drop_succ_cons, List.drop_zero, h]

lemma characterLength?_escaped {w : UInt16} {us : Units} {k : Nat} (h : find? [quote] us = some k) :
    characterLength? lex quote (v :: w :: us) =
      if ((quote :: v :: w :: us).take (k + 3)).contains lineFeed then none else some (k + 4) := by
  rw [characterLength?, List.head?_cons, Option.any_some, if_pos escape, List.drop_succ_cons,
    List.drop_succ_cons, List.drop_zero, h]

end

lemma characterLength?_append {lex : Lexicon} {quote : UInt16} {us rest : Units}
    (h : ∀ n, characterLength? lex quote (us ++ rest) = some n → n ≤ us.length + 1) :
    characterLength? lex quote (us ++ rest) = characterLength? lex quote us := by
  rcases us with _ | ⟨v, _ | ⟨w, us⟩⟩
  · rw [characterLength?_eq_none_of_short (by decide : 1 ≤ 2) h]
    rfl
  · rw [characterLength?_eq_none_of_short (Nat.le_refl 2) h]
    cases he : lex.isEscape v <;> simp [characterLength?, he, find?, findFrom]
  · by_cases he : lex.isEscape v = true
    · simp only [List.cons_append] at h ⊢
      cases hf : find? [quote] us with
      | some k =>
        have hk := find?_bound hf
        have ht : (quote :: v :: w :: (us ++ rest)).take (k + 3) = (quote :: v :: w :: us).take (k + 3) :=
          List.take_append_of_le_length (show k + 3 ≤ (quote :: v :: w :: us).length by
            simp only [List.length_cons, List.length_nil] at hk ⊢
            omega)
        rw [characterLength?_escaped he hf, characterLength?_escaped he (find?_append_of_some hf rest), ht]
      | none =>
        rw [characterLength?_unclosed he hf]
        cases hr : find? [quote] (us ++ rest) with
        | none => exact characterLength?_unclosed he hr
        | some k =>
          rw [characterLength?_escaped he hr] at h ⊢
          split
          · rfl
          · next hl =>
            have hk := h (k + 4) (if_neg hl)
            rw [find?_append rest (by simp only [List.length_cons, List.length_nil] at hk ⊢; omega), hf] at hr
            contradiction
    · simp [characterLength?, he]

lemma next_append {lex : Lexicon} (inline : lex.MarkersInline) {u : UInt16} {us rest : Units}
    (h : (next lex u (us ++ rest)).length ≤ us.length + 1) : next lex u (us ++ rest) = next lex u us := by
  rw [next, ← List.cons_append] at h
  rw [next, next, ← List.cons_append]
  cases hb : blockCommentOf? (u :: us ++ rest) lex.blockComments with
  | some token =>
    rw [hb] at h
    rw [blockCommentOf?_append_some hb h]
  | none =>
    rw [hb] at h
    rw [blockCommentOf?_append_none hb]
    simp only at h ⊢
    cases hc : lineCommentOf? (u :: us ++ rest) lex.lineComments with
    | some token =>
      rw [hc] at h
      rw [lineCommentOf?_append_some inline hc h]
    | none =>
      rw [hc] at h
      rw [lineCommentOf?_append_none hc]
      simp only at h ⊢
      by_cases hq : lex.isQuote u = true
      · rw [if_pos hq] at h
        rw [if_pos hq, if_pos hq, stringLength_append lex u 1 us rest (by simpa [length, Nat.add_comm] using h)]
      · rw [if_neg hq] at h
        rw [if_neg hq, if_neg hq]
        by_cases hl : lex.isCharQuote u = true
        · rw [if_pos hl] at h
          rw [if_pos hl, if_pos hl]
          rw [characterLength?_append]
          intro n hn
          simpa [hn, length] using h
        · rw [if_neg hl, if_neg hl]

end Token

end Counterpart
