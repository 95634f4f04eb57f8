import Counterpart.Proofs.LineBreak.Token
import Counterpart.Proofs.Token.Literal

/-! A line feed that no comment and no string takes along parts a text: the tokens before it and behind it do
not see each other. -/

namespace Counterpart

namespace Token

open Counterpart.Units

lemma isPrefixOf_feed {word : Units} (inline : lineFeed ∉ word) (us rest : Units) :
    word.isPrefixOf (us ++ lineFeed :: rest) = word.isPrefixOf us := by
  induction word generalizing us with
  | nil => simp
  | cons w word ih =>
    rw [List.mem_cons, not_or] at inline
    cases us with
    | nil =>
      rw [List.nil_append, List.isPrefixOf_cons_cons, beq_false_of_ne (Ne.symm inline.1), Bool.false_and]
      rfl
    | cons u us => rw [List.cons_append, List.isPrefixOf_cons_cons, List.isPrefixOf_cons_cons, ih inline.2]

lemma blockCommentOf?_feed {pairs : List (Units × Units)} (inline : ∀ pair ∈ pairs, lineFeed ∉ pair.1)
    {us b : Units}
    (h : ∀ token ∈ blockCommentOf? (us ++ lineFeed :: b) pairs, token.length ≤ us.length) (rest : Units) :
    blockCommentOf? (us ++ lineFeed :: rest) pairs = blockCommentOf? (us ++ lineFeed :: b) pairs := by
  induction pairs with
  | nil => rfl
  | cons pair pairs ih =>
    obtain ⟨opener, closer⟩ := pair
    obtain ⟨hi, hr⟩ := List.forall_mem_cons.mp inline
    simp only [blockCommentOf?, isPrefixOf_feed hi] at h ⊢
    split
    · next begins =>
      have hl := (List.isPrefixOf_iff_prefix.mp (Bool.and_eq_true_iff.mp begins).2).length_le
      have short := h _ (if_pos begins)
      rw [List.drop_append_of_le_length hl] at short ⊢
      rw [List.drop_append_of_le_length hl]
      cases hf : find? closer (us.drop opener.length ++ lineFeed :: b) with
      | none =>
        simp only [hf, length, List.length_append, List.length_drop, List.length_cons] at short
        omega
      | some n =>
        simp only [hf, length] at short
        have found := (find?_append _ (by rw [List.length_drop]; omega)).mp hf
        rw [find?_append_of_some found]
    · next begins => exact ih hr fun token ht => h token (by rwa [if_neg begins])

lemma lineCommentOf?_feed {markers : List Units} (inline : ∀ marker ∈ markers, lineFeed ∉ marker)
    (us b rest : Units) :
    lineCommentOf? (us ++ lineFeed :: rest) markers = lineCommentOf? (us ++ lineFeed :: b) markers := by
  have line : ∀ rest : Units, (us ++ lineFeed :: rest).takeWhile (· != lineFeed) =
      us.takeWhile (· != lineFeed) := by
    intro rest
    rw [List.takeWhile_append]
    split
    · next whole => simpa using (List.takeWhile_prefix (l := us) (· != lineFeed)).eq_of_length whole |>.symm
    · rfl
  induction markers with
  | nil => rfl
  | cons marker markers ih =>
    obtain ⟨hi, hr⟩ := List.forall_mem_cons.mp inline
    rw [lineCommentOf?, lineCommentOf?, isPrefixOf_feed hi, isPrefixOf_feed hi, line, line, ih hr]

lemma ends_of_stringLength_le {lex : Lexicon} {quote : UInt16} {read : Nat} {b : Units}
    (h : stringLength lex quote read (lineFeed :: b) ≤ read) :
    ¬ (lineFeed == quote) = true ∧ (lineFeed == lineFeed && !lex.isMultiline quote) = true := by
  rw [stringLength_cons] at h
  split at h
  · omega
  · next hq =>
    refine ⟨hq, ?_⟩
    split at h
    · next hf => exact hf
    · exfalso
      split at h
      · cases b with
        | nil => exact absurd h (Nat.not_succ_le_self read)
        | cons v b =>
          have hl := le_stringLength lex quote (read + 2) b
          dsimp only at h
          omega
      · have hl := le_stringLength lex quote (read + 1) b
        omega

lemma stringLength_feed (lex : Lexicon) (quote : UInt16) (read : Nat) (us : Units) {b : Units}
    (h : stringLength lex quote read (us ++ lineFeed :: b) ≤ read + us.length) (rest : Units) :
    stringLength lex quote read (us ++ lineFeed :: rest) = stringLength lex quote read (us ++ lineFeed :: b) := by
  fun_induction stringLength lex quote read us with
  | case1 read =>
    obtain ⟨hq, hf⟩ := ends_of_stringLength_le h
    have ends : ∀ rest, stringLength lex quote read ([] ++ lineFeed :: rest) = read := fun rest => by
      rw [List.nil_append, stringLength_cons, if_neg hq, if_pos hf]
    rw [ends, ends]
  | case2 read u us hq =>
    have ends : ∀ rest, stringLength lex quote read (u :: us ++ rest) = read + 1 := fun rest => by
      rw [List.cons_append, stringLength_cons, if_pos hq]
    rw [ends, ends]
  | case3 read u us hq hf =>
    have ends : ∀ rest, stringLength lex quote read (u :: us ++ rest) = read := fun rest => by
      rw [List.cons_append, stringLength_cons, if_neg hq, if_pos hf]
    rw [ends, ends]
  | case4 read u hq hf he =>
    -- The escape takes the line feed along.
    rw [List.cons_append, stringLength_cons, if_neg hq, if_neg hf, if_pos he] at h
    have hl := le_stringLength lex quote (read + 2) b
    simp only [List.nil_append, List.length_singleton] at h
    omega
  | case5 read u hq hf he v us ih =>
    have goes : ∀ rest, stringLength lex quote read (u :: v :: us ++ rest) =
        stringLength lex quote (read + 2) (us ++ rest) := fun rest => by
      rw [List.cons_append, stringLength_cons, if_neg hq, if_neg hf, if_pos he]
      rfl
    rw [goes, List.length_cons, List.length_cons] at h
    rw [goes, goes]
    exact ih (by omega)
  | case6 read u us hq hf he ih =>
    have goes : ∀ rest, stringLength lex quote read (u :: us ++ rest) =
        stringLength lex quote (read + 1) (us ++ rest) := fun rest => by
      rw [List.cons_append, stringLength_cons, if_neg hq, if_neg hf, if_neg he]
    rw [goes, List.length_cons] at h
    rw [goes, goes]
    exact ih (by omega)

section

variable {lex : Lexicon} (unbroken : lex.Unbroken)
include unbroken

lemma characterLength?_feed {quote : UInt16} (hq : quote ≠ lineFeed ∧ quote ≠ carriageReturn)
    (us rest : Units) :
    characterLength? lex quote (us ++ lineFeed :: rest) = characterLength? lex quote us := by
  apply characterLength?_append
  intro n hn
  apply Nat.le_of_not_lt
  intro hlt
  apply lineFeed_not_mem_character unbroken hq hn
  apply List.mem_of_getElem? (i := us.length + 1)
  rw [List.getElem?_take_of_lt hlt, List.getElem?_cons_succ, List.getElem?_append_right (Nat.le_refl _),
    Nat.sub_self]
  rfl

lemma next_feed {u : UInt16} {us b : Units} (h : (next lex u (us ++ lineFeed :: b)).length ≤ us.length + 1)
    (rest : Units) : next lex u (us ++ lineFeed :: rest) = next lex u (us ++ lineFeed :: b) := by
  have short : ∀ token ∈ blockCommentOf? (u :: us ++ lineFeed :: b) lex.blockComments,
      token.length ≤ us.length + 1 :=
    fun token ht => by
      rw [next, ← List.cons_append, ht] at h
      exact h
  have block := blockCommentOf?_feed (fun pair hp => (unbroken.blockComments pair hp).1.1) short rest
  have line := lineCommentOf?_feed (fun marker hm => (unbroken.lineComments marker hm).1) (u :: us) b rest
  rw [List.cons_append, List.cons_append] at block line
  rw [next] at h
  rw [next, next, block, line]
  cases hb : blockCommentOf? (u :: (us ++ lineFeed :: b)) lex.blockComments with
  | some token => rfl
  | none =>
    rw [hb] at h
    cases hl : lineCommentOf? (u :: (us ++ lineFeed :: b)) lex.lineComments with
    | some token => rfl
    | none =>
      rw [hl] at h
      dsimp only at h ⊢
      by_cases hq : lex.isQuote u = true
      · rw [if_pos hq] at h
        rw [if_pos hq, if_pos hq, stringLength_feed lex u 1 us (by simpa [length, Nat.add_comm] using h)]
      · rw [if_neg hq, if_neg hq]
        by_cases hc : lex.isCharQuote u = true
        · have hne := unbroken.isQuote_ne (.inr hc)
          rw [if_pos hc, if_pos hc, characterLength?_feed unbroken hne, characterLength?_feed unbroken hne]
        · rw [if_neg hc, if_neg hc]

lemma ofUnits_feed (us : Units) {b : Units} (h : us.length ∈ boundaries (ofUnits lex (us ++ lineFeed :: b)))
    (rest : Units) : ofUnits lex (us ++ lineFeed :: rest) = ofUnits lex us ++ plain :: ofUnits lex rest := by
  have inline : lex.MarkersInline := fun marker hm => (unbroken.lineComments marker hm).1
  induction us using token_induction lex with
  | nil =>
    rw [List.nil_append, ofUnits_cons, next_break unbroken (.inl rfl)]
    rfl
  | cons u us ih =>
    rw [List.cons_append, ofUnits_cons, mem_boundaries_cons] at h
    obtain h | ⟨j, hj, hl⟩ := h
    · contradiction
    · rw [List.length_cons] at hl
      have short : (next lex u (us ++ lineFeed :: b)).length ≤ us.length + 1 := by omega
      have narrow := next_append inline short
      have same := next_feed unbroken short rest
      rw [narrow] at hj hl same
      have cut : ∀ rest : Units, (u :: (us ++ rest)).drop (next lex u us).length =
          (u :: us).drop (next lex u us).length ++ rest := by
        intro rest
        rw [← List.cons_append, List.drop_append_of_le_length (by rw [List.length_cons]; omega)]
      have hlen : ((u :: us).drop (next lex u us).length).length = j := by
        rw [List.length_drop, List.length_cons]
        omega
      rw [cut] at hj
      rw [List.cons_append, ofUnits_cons, same, cut, ih (by rwa [hlen]), ofUnits_cons, List.cons_append]

end

lemma mem_boundaries_of_code {tokens : List Token} (pos : ∀ token ∈ tokens, 0 < token.length) {o : Nat}
    (h : (tokens.flatMap (styles .code))[o]? = some .code) : o ∈ boundaries tokens := by
  induction tokens generalizing o with
  | nil => simp at h
  | cons token tokens ih =>
    obtain ⟨_, further⟩ := List.forall_mem_cons.mp pos
    rw [mem_boundaries_cons]
    rw [List.flatMap_cons, List.getElem?_append, length_styles] at h
    split at h
    · next inside =>
      left
      cases token with
      | plain => exact Nat.lt_one_iff.mp inside
      | blockComment opener body closer =>
        have hm := List.mem_of_getElem? h
        simp [styles] at hm
      | lineComment marker length =>
        have hm := List.mem_of_getElem? h
        simp [styles] at hm
      | string length =>
        have hm := List.mem_of_getElem? h
        simp [styles] at hm
      | character length =>
        have hm := List.mem_of_getElem? h
        simp [styles] at hm
    · next behind => exact .inr ⟨o - token.length, ih further h, by omega⟩

lemma stylesOf_append {lex : Lexicon} (unbroken : lex.Unbroken) {a b : Units}
    (ends : a = [] ∨ ∃ us, a = us ++ [lineFeed] ∧ (stylesOf lex (a ++ b))[us.length]? = some .code)
    (rest : Units) :
    stylesOf lex (a ++ rest) = stylesOf lex a ++ stylesOf lex rest := by
  rcases ends with rfl | ⟨us, rfl, code⟩
  · rfl
  · rw [List.append_assoc, List.singleton_append] at code ⊢
    have pos : ∀ token ∈ ofUnits lex (us ++ lineFeed :: b), 0 < token.length := fun token hm => by
      obtain ⟨before, after, hs⟩ := List.append_of_mem hm
      exact length_pos_of_ofUnits hs
    have boundary := mem_boundaries_of_code pos code
    rw [stylesOf, stylesOf, stylesOf, ofUnits_feed unbroken us boundary rest, ofUnits_feed unbroken us boundary []]
    simp

end Token

end Counterpart
