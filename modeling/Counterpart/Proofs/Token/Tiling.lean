import Counterpart.Proofs.Token.Next

namespace Counterpart

namespace Token

open Counterpart.Units

lemma readOnto_drop (lex : Lexicon) (read : Array Token) (skip : Nat) (us : Units) :
    readOnto lex read skip us = readOnto lex read 0 (us.drop skip) := by
  induction us generalizing skip with
  | nil => cases skip <;> rfl
  | cons u us ih =>
    cases skip with
    | zero => rfl
    | succ skip => exact ih skip

lemma readOnto_toList (lex : Lexicon) (read : Array Token) (skip : Nat) (us : Units) :
    (readOnto lex read skip us).toList = read.toList ++ (readOnto lex #[] skip us).toList := by
  induction us generalizing read skip with
  | nil => cases skip <;> simp [readOnto]
  | cons u us ih =>
    cases skip with
    | zero =>
      simp only [readOnto]
      rw [ih, ih (#[].push (next lex u us))]
      simp
    | succ skip => exact ih read skip

@[simp] lemma ofUnits_nil (lex : Lexicon) : ofUnits lex [] = [] := rfl

lemma ofUnits_cons (lex : Lexicon) (u : UInt16) (us : Units) :
    ofUnits lex (u :: us) = next lex u us :: ofUnits lex ((u :: us).drop (next lex u us).length) := by
  obtain ⟨n, hn⟩ := Nat.exists_eq_add_of_lt (length_next_pos lex u us)
  rw [ofUnits, readOnto, readOnto_toList, readOnto_drop, ofUnits, hn]
  simp

lemma blockCommentOf?_length_le {us : Units} {pairs : List (Units × Units)} {token : Token}
    (h : blockCommentOf? us pairs = some token) : token.length ≤ us.length := by
  induction pairs with
  | nil => contradiction
  | cons pair pairs ih =>
    obtain ⟨opener, closer⟩ := pair
    simp only [blockCommentOf?] at h
    split at h
    · next ho =>
      rw [Bool.and_eq_true] at ho
      have hl := (List.isPrefixOf_iff_prefix.mp ho.2).length_le
      obtain rfl := Option.some.inj h
      cases hf : find? closer (us.drop opener.length) with
      | none => simp only [length, List.length_drop]; omega
      | some n =>
        have hb := find?_bound hf
        simp only [length, List.length_drop] at hb ⊢
        omega
    · exact ih h

lemma lineCommentOf?_length_le {u : UInt16} {us : Units} {markers : List Units} {token : Token}
    (h : lineCommentOf? (u :: us) markers = some token) : token.length ≤ us.length + 1 := by
  induction markers with
  | nil => contradiction
  | cons marker markers ih =>
    simp only [lineCommentOf?] at h
    split at h
    · obtain rfl := Option.some.inj h
      have hl := (List.takeWhile_prefix (l := u :: us) (· != lineFeed)).length_le
      simp only [length, List.length_cons] at hl ⊢
      omega
    · exact ih h

lemma stringLength_le (lex : Lexicon) (quote : UInt16) (read : Nat) (us : Units) :
    stringLength lex quote read us ≤ read + us.length := by
  fun_induction stringLength lex quote read us <;> simp only [List.length_cons, List.length_nil] <;> omega

lemma characterLength?_le {lex : Lexicon} {quote : UInt16} {us : Units} {n : Nat}
    (h : characterLength? lex quote us = some n) : n ≤ us.length + 1 := by
  rw [characterLength?] at h
  split at h
  · split at h
    · contradiction
    · next k hf =>
      have hb := find?_bound hf
      split at h
      · contradiction
      · obtain rfl := Option.some.inj h
        simp only [List.length_drop, List.length_cons, List.length_nil] at hb
        omega
  · split at h
    · next hq =>
      obtain rfl := Option.some.inj h
      obtain ⟨hl, _⟩ := List.getElem?_eq_some_iff.mp (eq_of_beq (Bool.and_eq_true_iff.mp hq).1)
      omega
    · contradiction

lemma next_cases (lex : Lexicon) (u : UInt16) (us : Units) :
    blockCommentOf? (u :: us) lex.blockComments = some (next lex u us) ∨
      lineCommentOf? (u :: us) lex.lineComments = some (next lex u us) ∨
        (lex.isQuote u = true ∧ next lex u us = string (stringLength lex u 1 us)) ∨
          (lex.isCharQuote u = true ∧ ∃ n, characterLength? lex u us = some n ∧
            next lex u us = character n) ∨ next lex u us = plain := by
  rw [next]
  split
  · next h => exact .inl h
  · split
    · next h => exact .inr (.inl h)
    · split
      · next hq => exact .inr (.inr (.inl ⟨hq, rfl⟩))
      · split
        · next hc =>
          split
          · next n hn => exact .inr (.inr (.inr (.inl ⟨hc, n, hn, rfl⟩)))
          · exact .inr (.inr (.inr (.inr rfl)))
        · exact .inr (.inr (.inr (.inr rfl)))

lemma length_next_le (lex : Lexicon) (u : UInt16) (us : Units) : (next lex u us).length ≤ us.length + 1 := by
  rcases next_cases lex u us with h | h | ⟨_, h⟩ | ⟨_, n, hn, h⟩ | h
  · exact blockCommentOf?_length_le h
  · exact lineCommentOf?_length_le h
  · rw [h]
    simpa [length, Nat.add_comm] using stringLength_le lex u 1 us
  · rw [h]
    exact characterLength?_le hn
  · rw [h]
    exact Nat.le_add_left 1 _

lemma token_induction (lex : Lexicon) {motive : Units → Prop} (nil : motive [])
    (cons : ∀ u us, motive ((u :: us).drop (next lex u us).length) → motive (u :: us)) (us : Units) :
    motive us := by
  induction us using (measure List.length).wf.induction with
  | h us ih =>
    cases us with
    | nil => exact nil
    | cons u us =>
      apply cons u us
      apply ih
      have hp := length_next_pos lex u us
      change ((u :: us).drop (next lex u us).length).length < (u :: us).length
      simp only [List.length_drop, List.length_cons]
      omega

def extent : List Token → Nat
  | [] => 0
  | token :: tokens => token.length + extent tokens

lemma extent_ofUnits (lex : Lexicon) (us : Units) : extent (ofUnits lex us) = us.length := by
  induction us using token_induction lex with
  | nil => rfl
  | cons u us ih =>
    have hl := length_next_le lex u us
    rw [ofUnits_cons, extent, ih, List.length_drop, List.length_cons]
    omega

end Token

end Counterpart
