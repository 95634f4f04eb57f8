import Counterpart.Proofs.Token.Literal
import Mathlib.Algebra.Ring.Parity
import Mathlib.Data.List.DropRight

/-! Where a string ends: at the first of its terminators that is not escaped. -/

namespace Counterpart

namespace Lexicon

def EscapesNext (lex : Lexicon) (us : Units) : Prop := Odd (us.rtakeWhile lex.isEscape).length

instance (lex : Lexicon) (us : Units) : Decidable (lex.EscapesNext us) :=
  inferInstanceAs (Decidable (Odd (us.rtakeWhile lex.isEscape).length))

variable {lex : Lexicon}

lemma not_escapesNext_nil : ¬ lex.EscapesNext [] := by simp [EscapesNext]

lemma escapesNext_concat (us : Units) (u : UInt16) :
    lex.EscapesNext (us ++ [u]) ↔ lex.isEscape u = true ∧ ¬ lex.EscapesNext us := by
  rw [EscapesNext, EscapesNext, List.rtakeWhile_concat]
  split
  · next he => rw [and_iff_right he, List.length_append, List.length_singleton, Nat.odd_add_one]
  · next he => exact iff_of_false (by simp) fun h => he h.1

lemma escapesNext_singleton (u : UInt16) : lex.EscapesNext [u] ↔ lex.isEscape u = true := by
  rw [← List.nil_append [u], escapesNext_concat]
  exact and_iff_left not_escapesNext_nil

lemma escapesNext_append {front : Units} (h : ¬ lex.EscapesNext front) (us : Units) :
    lex.EscapesNext (front ++ us) ↔ lex.EscapesNext us := by
  induction us using List.reverseRecOn with
  | nil => rw [List.append_nil]; exact iff_of_false h not_escapesNext_nil
  | append_singleton us u ih => rw [← List.append_assoc, escapesNext_concat, escapesNext_concat, ih]

end Lexicon

namespace Token

section

variable (lex : Lexicon) (quote : UInt16)

def Terminates (us : Units) (k : Nat) : Prop :=
  ¬ lex.EscapesNext (us.take k) ∧
    (us[k]? = some quote ∨ us[k]? = some lineFeed ∧ lex.isMultiline quote = false)

inductive Ending (us : Units) : Nat → Prop
  | closed {k : Nat} : Terminates lex quote us k → (∀ j < k, ¬ Terminates lex quote us j) →
      us[k]? = some quote → Ending us (k + 1)
  | cut {k : Nat} : Terminates lex quote us k → (∀ j < k, ¬ Terminates lex quote us j) →
      us[k]? ≠ some quote → Ending us k
  | unclosed : (∀ j, ¬ Terminates lex quote us j) → Ending us us.length

end

variable {lex : Lexicon} {quote : UInt16}

lemma terminates_append {front : Units} (h : ¬ lex.EscapesNext front) (us : Units) (k : Nat) :
    Terminates lex quote (front ++ us) (front.length + k) ↔ Terminates lex quote us k := by
  rw [Terminates, Terminates, List.take_length_add_append, Lexicon.escapesNext_append h,
    List.getElem?_append_right (Nat.le_add_right _ _), Nat.add_sub_cancel_left]

lemma Ending.behind {us : Units} {m : Nat} (ending : Ending lex quote us m) (front : Units)
    (h : ¬ lex.EscapesNext front) (within : ∀ j < front.length, ¬ Terminates lex quote (front ++ us) j) :
    Ending lex quote (front ++ us) (front.length + m) := by
  have unit : ∀ k, (front ++ us)[front.length + k]? = us[k]? := by
    intro k
    rw [List.getElem?_append_right (Nat.le_add_right _ _), Nat.add_sub_cancel_left]
  have before : ∀ k, (∀ j < k, ¬ Terminates lex quote us j) →
      ∀ j < front.length + k, ¬ Terminates lex quote (front ++ us) j := by
    intro k hk j hj
    rcases Nat.lt_or_ge j front.length with hin | hout
    · exact within j hin
    · obtain ⟨i, rfl⟩ := Nat.exists_eq_add_of_le hout
      rw [terminates_append h]
      exact hk i (by omega)
  cases ending with
  | closed ends first closes =>
    exact .closed ((terminates_append h us _).mpr ends) (before _ first) ((unit _).trans closes)
  | cut ends first other =>
    exact .cut ((terminates_append h us _).mpr ends) (before _ first) (by rwa [unit])
  | unclosed none =>
    rw [← List.length_append]
    refine .unclosed fun j hj => ?_
    exact before (j + 1) (fun i _ => none i) j (by omega) hj

lemma not_terminates_head {u : UInt16} (hq : ¬ (u == quote) = true)
    (hf : ¬ (u == lineFeed && !lex.isMultiline quote) = true) (us : Units) :
    ¬ Terminates lex quote (u :: us) 0 := by
  rintro ⟨_, ends | ⟨feed, single⟩⟩
  · exact hq (beq_iff_eq.mpr (Option.some.inj ends))
  · exact hf (by rw [single, Option.some.inj feed]; rfl)

lemma ending_stringLength (lex : Lexicon) (quote : UInt16) (read : Nat) (us : Units) :
    ∃ m, stringLength lex quote read us = read + m ∧ Ending lex quote us m := by
  fun_induction stringLength lex quote read us with
  | case1 read => exact ⟨0, rfl, .unclosed fun j hj => by simp [Terminates] at hj⟩
  | case2 read u us hq =>
    obtain rfl := eq_of_beq hq
    exact ⟨1, rfl, .closed ⟨Lexicon.not_escapesNext_nil, .inl rfl⟩ (by simp) rfl⟩
  | case3 read u us hq hf =>
    have ends : Terminates lex quote (u :: us) 0 := by
      rw [Bool.and_eq_true, beq_iff_eq, Bool.not_eq_true'] at hf
      exact ⟨Lexicon.not_escapesNext_nil, .inr ⟨congrArg some hf.1, hf.2⟩⟩
    exact ⟨0, rfl, .cut ends (by simp) fun h => hq (beq_iff_eq.mpr (Option.some.inj h))⟩
  | case4 read u hq hf he =>
    refine ⟨1, rfl, .unclosed fun j => ?_⟩
    cases j with
    | zero => exact not_terminates_head hq hf []
    | succ j => simp [Terminates]
  | case5 read u hq hf he v us ih =>
    -- The unit behind an escape is passed over whatever it is, and escapes nothing itself.
    obtain ⟨m, hm, ending⟩ := ih
    have escapes : lex.EscapesNext [u] := (Lexicon.escapesNext_singleton u).mpr he
    refine ⟨2 + m, by rw [hm, Nat.add_assoc], ending.behind [u, v] ?_ ?_⟩
    · rw [← List.singleton_append, Lexicon.escapesNext_concat]
      exact fun h => h.2 escapes
    · intro j hj
      have hj : j = 0 ∨ j = 1 := by
        rw [List.length_cons, List.length_singleton] at hj
        omega
      rcases hj with rfl | rfl
      · exact not_terminates_head hq hf (v :: us)
      · exact fun h => h.1 escapes
  | case6 read u us hq hf he ih =>
    obtain ⟨m, hm, ending⟩ := ih
    refine ⟨1 + m, by rw [hm, Nat.add_assoc], ending.behind [u] ?_ ?_⟩
    · rwa [Lexicon.escapesNext_singleton]
    · intro j hj
      obtain rfl : j = 0 := Nat.lt_one_iff.mp hj
      exact not_terminates_head hq hf us

lemma Ending.last {us : Units} {m k : Nat} (ending : Ending lex quote us m) (hk : k < m)
    (ends : Terminates lex quote us k) : k + 1 = m ∧ us[k]? = some quote := by
  cases ending with
  | @closed l _ first closes =>
    obtain rfl : k = l := Nat.eq_of_lt_succ_of_not_lt hk fun hlt => first k hlt ends
    exact ⟨rfl, closes⟩
  | cut _ first _ => exact (first k hk ends).elim
  | unclosed none => exact (none k ends).elim

lemma string_of_next {u : UInt16} {rest : Units} {n : Nat} (h : next lex u rest = string n) :
    lex.isQuote u = true ∧ n = stringLength lex u 1 rest := by
  rcases next_cases lex u rest with hb | hl | ⟨hq, hs⟩ | ⟨_, _, _, hc⟩ | hp
  · obtain ⟨_, _, _, he⟩ := eq_of_blockCommentOf? hb
    rw [h] at he
    contradiction
  · obtain ⟨_, _, he⟩ := eq_of_lineCommentOf? hl
    rw [h] at he
    contradiction
  · exact ⟨hq, string.inj (h.symm.trans hs)⟩
  · rw [h] at hc
    contradiction
  · rw [h] at hp
    contradiction

lemma exists_ending {us : Units} {before after : List Token} {n : Nat}
    (tokens : ofUnits lex us = before ++ .string n :: after) :
    ∃ quote rest m, us.drop (extent before) = quote :: rest ∧ lex.isQuote quote = true ∧ n = m + 1 ∧
      Ending lex quote rest m := by
  obtain ⟨quote, rest, hd, hn⟩ := next_of_ofUnits tokens
  obtain ⟨hq, hl⟩ := string_of_next hn.symm
  obtain ⟨m, hm, ending⟩ := ending_stringLength lex quote 1 rest
  exact ⟨quote, rest, m, hd, hq, by omega, ending⟩

end Token

namespace Text

variable {text : Text} {s : Nat} {u : UInt16} {rest : Units} (h : text.toUnits.drop s = u :: rest)
include h

lemma units_of_drop : text.units[s]? = some u := by
  rw [← Array.getElem?_toList, ← List.head?_drop]
  exact congrArg List.head? h

lemma drop_behind : text.toUnits.drop (s + 1) = rest := by
  rw [← List.drop_drop, h, List.drop_succ_cons, List.drop_zero]

lemma units_behind (k : Nat) : text.units[s + 1 + k]? = rest[k]? := by
  rw [← drop_behind h, List.getElem?_drop]
  exact Array.getElem?_toList.symm

lemma extract_behind (k : Nat) : text.extract (s + 1) (s + 1 + k) = rest.take k := by
  rw [extract, Array.toList_extract, List.extract_eq_take_drop, Nat.add_sub_cancel_left]
  exact congrArg (List.take k) (drop_behind h)

lemma length_behind : s + 1 + rest.length = text.length := by
  have hl := congrArg List.length h
  rw [List.length_drop, List.length_cons, length_toUnits] at hl
  omega

end Text

namespace Token

def Closed (lex : Lexicon) (text : Text) (s e : Nat) : Prop :=
  s < e - 1 ∧ text.units[e - 1]? = text.units[s]? ∧ ¬ lex.EscapesNext (text.extract (s + 1) (e - 1))

instance (lex : Lexicon) (text : Text) (s e : Nat) : Decidable (Closed lex text s e) :=
  inferInstanceAs (Decidable (_ ∧ _ ∧ _))

lemma closed_or_cut {text : Text} {s m : Nat} {rest : Units} (h : text.toUnits.drop s = quote :: rest)
    (ending : Ending lex quote rest m) :
    Closed lex text s (s + (m + 1)) ∨ s + (m + 1) = text.length ∨
      lex.isMultiline quote = false ∧ text.units[s + (m + 1)]? = some lineFeed ∧
        ¬ lex.EscapesNext (text.extract (s + 1) (s + (m + 1))) := by
  have he : s + (m + 1) = s + 1 + m := by omega
  rw [he]
  cases ending with
  | @closed k ends _ closes =>
    have hlast : s + 1 + (k + 1) - 1 = s + 1 + k := rfl
    left
    rw [Closed, hlast, Text.units_behind h, Text.units_of_drop h, Text.extract_behind h]
    exact ⟨by omega, closes, ends.1⟩
  | cut ends _ other =>
    obtain ⟨feed, single⟩ := ends.2.resolve_left other
    rw [Text.units_behind h, Text.extract_behind h]
    exact .inr (.inr ⟨single, feed, ends.1⟩)
  | unclosed => exact .inr (.inl (Text.length_behind h))

lemma tagsAt_in_literal {language : String} {text : Text} {before after : List Token} {token : Token}
    (tokens : ofUnits (Lexicon.ofLanguage language) text.toUnits = before ++ token :: after)
    (literal : token.isLiteral = true) {k : Nat} (hk : k < token.length) :
    (Styling.ofText (Lexicon.ofLanguage language) text).tagsAt (extent before + k : Nat) = Style.string.tags := by
  change ((Styling.styles _).getD _ .code).tags = _
  rw [Array.getD_eq_getD_getElem?, Styling.getElem?_styles (Lexicon.markersInline_ofLanguage language), tokens,
    (style_in_token before after hk).mpr literal]
  rfl

/-- A string ends with the first quote of its kind that is not escaped, or before the first line feed that is not
escaped if it may not span lines, or with the text, and is styled as a string throughout. -/
theorem string_ends_at_first_terminator (language : String) (text : Text) (before after : List Token) (n : Nat)
    (tokens : ofUnits (Lexicon.ofLanguage language) text.toUnits = before ++ .string n :: after) :
    let lex := Lexicon.ofLanguage language
    let s := extent before
    let e := s + n
    let escaped := fun j => lex.EscapesNext (text.extract (s + 1) j)
    ∃ quote, text.units[s]? = some quote ∧ lex.isQuote quote = true ∧
      (∀ j, s < j → j < e - 1 → text.units[j]? = some quote → escaped j) ∧
      (lex.isMultiline quote = false → ∀ j, s < j → j < e → text.units[j]? = some lineFeed →
        escaped j) ∧
      (Closed lex text s e ∨ e = text.length ∨
        lex.isMultiline quote = false ∧ text.units[e]? = some lineFeed ∧ ¬ escaped e) ∧
      ∀ o : Nat, s ≤ o → o < e → (Styling.ofText lex text).tagsAt o = Style.string.tags := by
  intro lex s e escaped
  obtain ⟨quote, rest, m, hd, hq, rfl, ending⟩ := exists_ending tokens
  have solid : quote ≠ lineFeed := by
    rintro rfl
    have glyph := (Lexicon.quotesGlyphs_ofLanguage language).isQuoteGlyph (.inl hq)
    contradiction
  -- What is asked of `j` is known of its distance from the opening quote.
  have behind : ∀ {j}, s < j → ∃ k, j = s + 1 + k := Nat.exists_eq_add_of_le
  refine ⟨quote, Text.units_of_drop hd, hq, ?_, ?_, closed_or_cut hd ending, ?_⟩
  · intro j hs he hj
    obtain ⟨k, rfl⟩ := behind hs
    rw [Text.units_behind hd] at hj
    by_contra unescaped
    obtain ⟨hlast, _⟩ := ending.last (by omega) ⟨Text.extract_behind hd k ▸ unescaped, .inl hj⟩
    omega
  · intro single j hs he hj
    obtain ⟨k, rfl⟩ := behind hs
    rw [Text.units_behind hd] at hj
    by_contra unescaped
    obtain ⟨_, closes⟩ :=
      ending.last (by omega) ⟨Text.extract_behind hd k ▸ unescaped, .inr ⟨hj, single⟩⟩
    exact solid (Option.some.inj (closes.symm.trans hj))
  · intro o hs he
    obtain ⟨k, rfl⟩ := Nat.exists_eq_add_of_le hs
    exact tagsAt_in_literal tokens rfl (Nat.lt_of_add_lt_add_left he)

theorem string_ends_at_first_terminator_past_escapes :
    let text := Text.ofString "f(\"a\\\"\\\\\")"
    let lex := Lexicon.ofLanguage "typescript"
    ofUnits lex text.toUnits = [.plain, .plain] ++ .string 7 :: [.plain] ∧ Closed lex text 2 9 ∧
      (∀ j, 2 < j → j < 8 → text.units[j]? = some 0x22 → lex.EscapesNext (text.extract 3 j)) ∧
        ∀ o : Nat, 2 ≤ o → o < 9 → (Styling.ofText lex text).tagsAt o = Style.string.tags := by
  intro text lex
  have tokens : ofUnits lex text.toUnits = [.plain, .plain] ++ .string 7 :: [.plain] := by decide +kernel
  have closed : Closed lex text 2 9 := by decide +kernel
  obtain ⟨quote, hq, _, escaped, _, _, styled⟩ :=
    string_ends_at_first_terminator "typescript" text _ _ _ tokens
  obtain rfl : quote = 0x22 := Option.some.inj (hq.symm.trans (by decide +kernel))
  exact ⟨tokens, closed, escaped, styled⟩

end Token

end Counterpart
