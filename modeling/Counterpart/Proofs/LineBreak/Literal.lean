import Counterpart.Bracket
import Counterpart.Proofs.LineBreak.Token

/-! Strings of a text with widened line breaks: which of them read alike, and what they take. -/

namespace Counterpart

namespace Token

open Counterpart.Units

/-- Whether a string reads alike with widened line breaks, `last` being the unit read before. If it has to end
on its line, no line feed is escaped in it, and where a line feed cuts it short, it does not end on a quote.
-/
def literalAlike (lex : Lexicon) (quote last : UInt16) : Units → Bool
  | [] => true
  | u :: rest =>
    if u == quote then true
    else if u == lineFeed && !lex.isMultiline quote then !isQuoteGlyph last
    else if lex.isEscape u then
      match rest with
      | [] => true
      | v :: rest => (v != lineFeed || lex.isMultiline quote) && literalAlike lex quote v rest
    else literalAlike lex quote u rest

def alikeFrom (lex : Lexicon) : List Token → Units → Bool
  | [], _ => true
  | string length :: tokens, quote :: rest =>
    literalAlike lex quote quote rest && alikeFrom lex tokens ((quote :: rest).drop length)
  | token :: tokens, us => alikeFrom lex tokens (us.drop token.length)

/-- All strings of the text read alike with widened line breaks. -/
def ReadsAlike (lex : Lexicon) (us : Units) : Prop := alikeFrom lex (ofUnits lex us) us = true

instance (lex : Lexicon) (us : Units) : Decidable (ReadsAlike lex us) :=
  inferInstanceAs (Decidable (alikeFrom lex (ofUnits lex us) us = true))

lemma ReadsAlike.behind {lex : Lexicon} {u : UInt16} {us : Units} (alike : ReadsAlike lex (u :: us)) :
    ReadsAlike lex ((u :: us).drop (next lex u us).length) := by
  rw [ReadsAlike, ofUnits_cons] at alike
  cases hn : next lex u us <;> rw [hn] at alike
  case string => exact (Bool.and_eq_true_iff.mp alike).2
  all_goals exact alike

lemma ReadsAlike.literal {lex : Lexicon} {u : UInt16} {us : Units} {n : Nat} (alike : ReadsAlike lex (u :: us))
    (hn : next lex u us = string n) : literalAlike lex u u us = true := by
  rw [ReadsAlike, ofUnits_cons, hn] at alike
  exact (Bool.and_eq_true_iff.mp alike).1

lemma stringLength_add (lex : Lexicon) (quote : UInt16) (read k : Nat) (us : Units) :
    stringLength lex quote (read + k) us = stringLength lex quote read us + k := by
  fun_induction stringLength lex quote read us with
  | case1 read => rfl
  | case2 read u us hq =>
    rw [stringLength_cons, if_pos hq]
    omega
  | case3 read u us hq hf => rw [stringLength_cons, if_neg hq, if_pos hf]
  | case4 read u hq hf he =>
    rw [stringLength_cons, if_neg hq, if_neg hf, if_pos he]
    exact Nat.add_right_comm read k 1
  | case5 read u hq hf he v us ih =>
    rw [stringLength_cons, if_neg hq, if_neg hf, if_pos he, ← ih, Nat.add_right_comm read 2 k]
  | case6 read u us hq hf he ih =>
    rw [stringLength_cons, if_neg hq, if_neg hf, if_neg he, ← ih, Nat.add_right_comm]

def ReadAs (last : UInt16) (us : Units) (narrow wide : Nat) : Prop :=
  ∃ body after : Units, us = body ++ after ∧ narrow = body.length ∧
    (wide = (widen body).length ∨
      ∃ (init rest : Units) (u : UInt16), last :: body = init ++ [u] ∧ after = lineFeed :: rest ∧
        u ≠ lineFeed ∧
        isQuoteGlyph u = false ∧ wide = (widen body).length + 1)

lemma ReadAs.cons {last u : UInt16} {us : Units} {narrow wide : Nat} (h : ReadAs u us narrow wide) :
    ReadAs last (u :: us) (narrow + 1) (wide + (widen [u]).length) := by
  obtain ⟨body, after, rfl, rfl, hw⟩ := h
  have hwide : (widen (u :: body)).length = (widen body).length + (widen [u]).length := by
    rw [← List.singleton_append, widen_append, List.length_append, Nat.add_comm]
  refine ⟨u :: body, after, rfl, rfl, ?_⟩
  rw [hwide]
  rcases hw with rfl | ⟨init, rest, v, hi, ha, hv, glyph, rfl⟩
  · exact .inl rfl
  · exact .inr ⟨last :: init, rest, v, by rw [hi, List.cons_append], ha, hv, glyph, Nat.add_right_comm _ _ _⟩

section

variable {lex : Lexicon} (unbroken : lex.Unbroken) {quote : UInt16}
  (hq : quote ≠ lineFeed ∧ quote ≠ carriageReturn)
include unbroken hq

lemma stringLength_carriageReturn (us : Units) :
    stringLength lex quote 0 (carriageReturn :: us) = stringLength lex quote 0 us + 1 := by
  have he := unbroken.not_isEscape (u := carriageReturn) (.inr rfl)
  have hf : (carriageReturn == lineFeed) = false := by decide
  rw [stringLength_cons, beq_false_of_ne hq.2.symm, hf, he, Bool.false_and, ← stringLength_add]
  rfl

lemma stringLength_lineFeed (multiline : lex.isMultiline quote = true) (us : Units) :
    stringLength lex quote 0 (lineFeed :: us) = stringLength lex quote 0 us + 1 := by
  have he := unbroken.not_isEscape (u := lineFeed) (.inl rfl)
  rw [stringLength_cons, beq_false_of_ne hq.1.symm, he, multiline, ← stringLength_add]
  rfl

lemma stringLength_widen {last : UInt16} {us : Units} (solid : last ≠ lineFeed ∨ lex.isMultiline quote = true)
    (alike : literalAlike lex quote last us = true) :
    ReadAs last us (stringLength lex quote 0 us) (stringLength lex quote 0 (widen us)) := by
  fun_induction literalAlike lex quote last us with
  | case1 last => exact ⟨[], [], rfl, rfl, .inl rfl⟩
  | case2 last u us hu =>
    obtain rfl := eq_of_beq hu
    refine ⟨[u], us, rfl, ?_, .inl ?_⟩
    · rw [stringLength_cons, if_pos hu]
      rfl
    · rw [widen_cons hq.1, stringLength_cons, if_pos hu, widen_cons hq.1]
      rfl
  | case3 last u us hu hf =>
    obtain ⟨hfeed, hm⟩ := Bool.and_eq_true_iff.mp hf
    rw [Bool.not_eq_true'] at hm alike
    obtain rfl := eq_of_beq hfeed
    have hlast : last ≠ lineFeed := solid.resolve_right (by rw [hm]; exact Bool.false_ne_true)
    refine ⟨[], _, rfl, ?_, .inr ⟨[], us, last, rfl, rfl, hlast, alike, ?_⟩⟩
    · rw [stringLength_cons, if_neg hu, if_pos hf]
      rfl
    · rw [widen_lineFeed, stringLength_carriageReturn unbroken hq, stringLength_cons, if_neg hu, if_pos hf]
      rfl
  | case4 last u hu hf he =>
    have narrow : stringLength lex quote 0 [u] = 1 := by rw [stringLength_cons, if_neg hu, if_neg hf, if_pos he]
    refine ⟨[u], [], rfl, narrow, .inl ?_⟩
    rw [widen_cons (unbroken.isEscape_ne he).1, widen_nil, narrow]
    rfl
  | case5 last u hu hf he v us ih =>
    obtain ⟨hv, alike⟩ := Bool.and_eq_true_iff.mp alike
    rw [Bool.or_eq_true, bne_iff_ne] at hv
    have read : ReadAs last (u :: v :: us) _ _ := (ih hv alike).cons.cons
    have escaped : ∀ w us, stringLength lex quote 0 (u :: w :: us) = stringLength lex quote 0 us + 2 := by
      intro w us
      rw [stringLength_cons, if_neg hu, if_neg hf, if_pos he, ← stringLength_add]
    have solidEscape := (unbroken.isEscape_ne he).1
    have wide : stringLength lex quote 0 (widen (u :: v :: us)) =
        stringLength lex quote 0 (widen us) + (widen [v]).length + (widen [u]).length := by
      rw [widen_cons solidEscape, widen_cons solidEscape]
      by_cases hf : v = lineFeed
      · subst hf
        rw [widen_lineFeed, escaped, stringLength_lineFeed unbroken hq (hv.resolve_left (by simp))]
        rfl
      · rw [widen_cons hf, widen_cons hf, escaped]
        rfl
    rw [escaped, wide]
    exact read
  | case6 last u us hu hf he ih =>
    have solid : u ≠ lineFeed ∨ lex.isMultiline quote = true := by
      by_cases hfeed : u = lineFeed
      · right
        simpa [hfeed] using hf
      · exact .inl hfeed
    have read : ReadAs last (u :: us) _ _ := (ih solid alike).cons
    have step : ∀ us, stringLength lex quote 0 (u :: us) = stringLength lex quote 0 us + 1 := by
      intro us
      rw [stringLength_cons, if_neg hu, if_neg hf, if_neg he, ← stringLength_add]
    have wide : stringLength lex quote 0 (widen (u :: us)) =
        stringLength lex quote 0 (widen us) + (widen [u]).length := by
      by_cases hfeed : u = lineFeed
      · subst hfeed
        rw [widen_lineFeed, stringLength_carriageReturn unbroken hq, step]
        rfl
      · rw [widen_cons hfeed, widen_cons hfeed, step]
        rfl
    rw [step, wide]
    exact read

end

end Token

end Counterpart
