import Counterpart.Proofs.LineBreak.Styling
import Counterpart.Proofs.Token.Plain
import Counterpart.Proofs.Token.Terminator

/-!
The character literals of Rust, for every character of Unicode. A literal is looked for at fixed distances in code
units, which fit an escape of any length, but a plain character only if it is one unit.
-/

namespace Counterpart

lemma toNat_unit {c : Char} (basic : c.toNat < 0x10000) : (unit c).toNat = c.toNat := by
  rw [unit, UInt32.toNat_toUInt16]
  exact Nat.mod_eq_of_lt basic

lemma unitsOfChar_basic {c : Char} (basic : c.toNat < 0x10000) : unitsOfChar c = [unit c] := if_pos basic

lemma char_toNat_lt (c : Char) : c.toNat < 0x110000 := by
  rcases c.valid with h | h
  · exact h.trans (by decide)
  · exact h.2

lemma exists_pair_of_astral {c : Char} (astral : 0x10000 ≤ c.toNat) :
    ∃ high low : UInt16, unitsOfChar c = [high, low] ∧ 0xD800 ≤ high.toNat ∧ 0xD800 ≤ low.toNat := by
  refine ⟨_, _, if_neg (Nat.not_lt.mpr astral), ?_, ?_⟩
  · have range := char_toNat_lt c
    rw [UInt16.toNat_ofNat', Nat.mod_eq_of_lt] <;> omega
  · have range := char_toNat_lt c
    rw [UInt16.toNat_ofNat', Nat.mod_eq_of_lt] <;> omega

lemma ne_unit_of_surrogate {u : UInt16} (surrogate : 0xD800 ≤ u.toNat) {c : Char} (low : c.toNat < 0xD800) :
    u ≠ unit c := by
  rintro rfl
  rw [toNat_unit (low.trans (by decide))] at surrogate
  omega

lemma unit_ne {c k : Char} (basic : c.toNat < 0x10000) (low : k.toNat < 0xD800) (h : c ≠ k) :
    unit c ≠ unit k := by
  intro same
  have hn := congrArg UInt16.toNat same
  rw [toNat_unit basic, toNat_unit (low.trans (by decide))] at hn
  exact h (Char.toNat_inj.mp hn)

lemma not_mem_unitsOfChar {c k : Char} (low : k.toNat < 0xD800) (h : c ≠ k) : unit k ∉ unitsOfChar c := by
  rcases Nat.lt_or_ge c.toNat 0x10000 with basic | astral
  · rw [unitsOfChar_basic basic, List.mem_singleton]
    exact (unit_ne basic low h).symm
  · obtain ⟨u, v, hc, hu, hv⟩ := exists_pair_of_astral astral
    rw [hc, List.mem_pair, not_or]
    exact ⟨(ne_unit_of_surrogate hu low).symm, (ne_unit_of_surrogate hv low).symm⟩

lemma not_mem_flatMap_unitsOfChar {cs : List Char} {k : Char} (low : k.toNat < 0xD800) (h : k ∉ cs) :
    unit k ∉ cs.flatMap unitsOfChar := by
  rw [List.mem_flatMap]
  rintro ⟨c, hc, hk⟩
  exact not_mem_unitsOfChar low (by rintro rfl; exact h hc) hk

lemma exists_unitsOfChar_cons (c : Char) :
    ∃ u us, unitsOfChar c = u :: us ∧ ∀ k : Char, k.toNat < 0xD800 → unit k ∉ us := by
  rcases Nat.lt_or_ge c.toNat 0x10000 with basic | astral
  · exact ⟨_, [], unitsOfChar_basic basic, fun _ _ => List.not_mem_nil⟩
  · obtain ⟨u, v, hc, _, hv⟩ := exists_pair_of_astral astral
    refine ⟨u, [v], hc, fun k low => ?_⟩
    rw [List.mem_singleton]
    exact (ne_unit_of_surrogate hv low).symm

lemma Units.find?_singleton_append {u : UInt16} {us : Units} (h : u ∉ us) (rest : Units) :
    find? [u] (us ++ u :: rest) = some us.length := by
  induction us with
  | nil => exact find?_of_isPrefixOf (by simp)
  | cons v us ih =>
    rw [List.mem_cons, not_or] at h
    have differs : ¬ [u].isPrefixOf (v :: (us ++ u :: rest)) = true := by
      rw [List.isPrefixOf_cons_cons, beq_false_of_ne h.1]
      exact Bool.false_ne_true
    rw [List.cons_append, find?_cons, if_neg differs, ih h.2, Option.map_some, List.length_cons, Nat.add_comm]

namespace Token

open Counterpart.Units

/-- What a character literal holds: one character that stands for itself, or one escape. -/
inductive CharacterContent : List Char → Prop
  | plain {c : Char} : c ≠ '\'' → c ≠ '\\' → c ≠ '\n' → CharacterContent [c]
  | escaped {c : Char} : c ≠ '\n' → CharacterContent ['\\', c]
  | byte {high low : Char} : high.isHexDigit = true → low.isHexDigit = true →
      CharacterContent ['\\', 'x', high, low]
  | scalar {digits : List Char} : digits ≠ [] → (∀ digit ∈ digits, digit.isHexDigit = true) →
      CharacterContent ('\\' :: 'u' :: '{' :: (digits ++ ['}']))

def characterLiteral (content : List Char) : Units := unit '\'' :: content.flatMap unitsOfChar ++ [unit '\'']

lemma not_mem_of_isHexDigit {digits : List Char} (hex : ∀ digit ∈ digits, digit.isHexDigit = true) {c : Char}
    (other : c.isHexDigit = false) : c ∉ digits := by
  intro hc
  rw [hex c hc] at other
  contradiction

lemma CharacterContent.plain_or_escaped {content : List Char} (holds : CharacterContent content) :
    (∃ c, content = [c] ∧ c ≠ '\'' ∧ c ≠ '\\' ∧ c ≠ '\n') ∨
      ∃ c cs, content = '\\' :: c :: cs ∧ '\'' ∉ cs ∧ '\n' ∉ c :: cs := by
  cases holds with
  | @plain c quote escape feed => exact .inl ⟨c, rfl, quote, escape, feed⟩
  | @escaped c feed => exact .inr ⟨c, [], rfl, List.not_mem_nil, by simpa using feed.symm⟩
  | @byte high low hh hl =>
    have hex : ∀ digit ∈ [high, low], digit.isHexDigit = true := by simp [hh, hl]
    have feed := not_mem_of_isHexDigit hex (by decide : Char.isHexDigit '\n' = false)
    refine .inr ⟨'x', [high, low], rfl, not_mem_of_isHexDigit hex (by decide), ?_⟩
    rw [List.mem_cons, not_or]
    exact ⟨by decide, feed⟩
  | @scalar digits _ hex =>
    have quote := not_mem_of_isHexDigit hex (by decide : Char.isHexDigit '\'' = false)
    have feed := not_mem_of_isHexDigit hex (by decide : Char.isHexDigit '\n' = false)
    exact .inr ⟨'u', '{' :: (digits ++ ['}']), rfl, by simpa using quote, by simpa using feed⟩

section

variable {lex : Lexicon} {quote : UInt16}

lemma characterLength?_of_escape_closed {escape : UInt16} (escapes : lex.isEscape escape = true) {u : UInt16}
    {us : Units} (unquoted : quote ∉ us) (inline : lineFeed ∉ quote :: escape :: u :: us) (rest : Units) :
    characterLength? lex quote (escape :: u :: (us ++ quote :: rest)) = some (us.length + 4) := by
  have taken : (quote :: escape :: u :: (us ++ quote :: rest)).take (us.length + 3) =
      quote :: escape :: u :: us := by
    simp
  rw [characterLength?_escaped escapes (find?_singleton_append unquoted rest), taken, if_neg]
  rw [List.contains_iff_mem]
  exact inline

lemma characterLength?_of_unit {u : UInt16} (unescaped : lex.isEscape u = false) (inline : u ≠ lineFeed)
    (rest : Units) : characterLength? lex quote (u :: quote :: rest) = some 3 := by
  simp [characterLength?, unescaped, inline]

lemma characterLength?_of_units {u v : UInt16} (unescaped : lex.isEscape u = false) (differs : v ≠ quote)
    (rest : Units) : characterLength? lex quote (u :: v :: rest) = none := by
  simp [characterLength?, unescaped, differs]

end

section

variable {u : UInt16}

lemma next_rust_of_ne (unslashed : u ≠ unit '/') (rest : Units) :
    next Lexicon.rust u rest = uncommented Lexicon.rust u rest := by
  have other : ∀ word rest' : Units, (unit '/' :: word).isPrefixOf (u :: rest') = false := by
    intro word rest'
    rw [List.isPrefixOf_cons_cons, beq_false_of_ne unslashed.symm, Bool.false_and]
  apply next_of_uncommented
  · show (if !false && (unit '/' :: [unit '*']).isPrefixOf (u :: rest) then _ else _) = _
    rw [other]
    rfl
  · show (if !false && (unit '/' :: [unit '/']).isPrefixOf (u :: rest) then _ else _) = _
    rw [other]
    rfl

lemma next_rust_quote {rest : Units} :
    next Lexicon.rust (unit '\'') rest = match characterLength? Lexicon.rust (unit '\'') rest with
      | some n => character n
      | none => plain := by
  rw [next_rust_of_ne (by decide)]
  rfl

end

section

variable {lex : Lexicon}

lemma ofUnits_of_next {u : UInt16} {us taken after : Units} (hs : u :: us = taken ++ after)
    (hl : (next lex u us).length = taken.length) : ofUnits lex (u :: us) = next lex u us :: ofUnits lex after := by
  rw [ofUnits_cons, hl, hs, List.drop_left]

end

lemma characterLiteral_append (content : List Char) (b : Units) :
    characterLiteral content ++ b = unit '\'' :: (content.flatMap unitsOfChar ++ unit '\'' :: b) := by
  simp [characterLiteral]

lemma length_characterLiteral (content : List Char) :
    (characterLiteral content).length = (content.flatMap unitsOfChar).length + 2 := by
  simp [characterLiteral]

lemma characterLength?_content {content : List Char} (holds : CharacterContent content)
    (basic : ∀ c, content = [c] → c.toNat < 0x10000) (b : Units) :
    characterLength? Lexicon.rust (unit '\'') (content.flatMap unitsOfChar ++ unit '\'' :: b) =
      some (characterLiteral content).length := by
  rw [length_characterLiteral]
  rcases holds.plain_or_escaped with ⟨c, rfl, _, escape, feed⟩ | ⟨c, cs, rfl, quote, feed⟩
  · have single := basic c rfl
    have unescaped : Lexicon.rust.isEscape (unit c) = false := by
      show ([unit '\\'] == [unit c]) = false
      simpa using (unit_ne single (by decide) escape).symm
    rw [List.flatMap_singleton, unitsOfChar_basic single]
    exact characterLength?_of_unit unescaped (unit_ne single (by decide) feed) b
  · obtain ⟨u, us, hc, within⟩ := exists_unitsOfChar_cons c
    have escapeUnits : ('\\' :: c :: cs).flatMap unitsOfChar = unit '\\' :: u ::
        (us ++ cs.flatMap unitsOfChar) := by
      rw [List.flatMap_cons, List.flatMap_cons, hc]
      rfl
    have inline : lineFeed ∉ (c :: cs).flatMap unitsOfChar := not_mem_flatMap_unitsOfChar (by decide) feed
    have unquoted : unit '\'' ∉ us ++ cs.flatMap unitsOfChar := by
      rw [List.mem_append, not_or]
      exact ⟨within '\'' (by decide), not_mem_flatMap_unitsOfChar (by decide) quote⟩
    rw [List.flatMap_cons, hc, List.cons_append] at inline
    rw [escapeUnits, List.cons_append, List.cons_append]
    refine characterLength?_of_escape_closed (by decide) unquoted ?_ b
    rw [List.mem_cons, List.mem_cons, not_or, not_or]
    exact ⟨by decide, by decide, inline⟩

lemma ofUnits_characterLiteral {content : List Char} (holds : CharacterContent content)
    (basic : ∀ c, content = [c] → c.toNat < 0x10000) (b : Units) :
    ofUnits Lexicon.rust (characterLiteral content ++ b) =
      character (characterLiteral content).length :: ofUnits Lexicon.rust b := by
  have read : next Lexicon.rust (unit '\'') (content.flatMap unitsOfChar ++ unit '\'' :: b) =
      character (characterLiteral content).length := by
    rw [next_rust_quote, characterLength?_content holds basic]
  have split := (characterLiteral_append content b).symm
  rw [characterLiteral_append, ofUnits_of_next split (by rw [read]; rfl), read]

lemma ofUnits_astralLiteral {c : Char} (astral : 0x10000 ≤ c.toNat) (b : Units) :
    ofUnits Lexicon.rust (characterLiteral [c] ++ b) =
      List.replicate 3 plain ++ ofUnits Lexicon.rust (unit '\'' :: b) := by
  obtain ⟨u, v, hc, hu, hv⟩ := exists_pair_of_astral astral
  have unescaped : Lexicon.rust.isEscape u = false := by
    show ([unit '\\'] == [u]) = false
    simpa using (@ne_unit_of_surrogate u hu '\\' (by decide)).symm
  have unread := @characterLength?_of_units Lexicon.rust (unit '\'') u v unescaped
    (@ne_unit_of_surrogate v hv '\'' (by decide)) (unit '\'' :: b)
  have below : ∀ word ∈ Lexicon.rust.openers, word.head?.any (fun u => u.toNat < 0xD800) = true := by decide
  have pair : ∀ w ∈ [u, v], decide (w.toNat < 0xD800) = false := by simp [hu, hv]
  rw [characterLiteral_append, List.flatMap_singleton, hc,
    ofUnits_plain (by rw [next_rust_quote]; exact unread ▸ rfl), ofUnits_unopened below pair]
  rfl

lemma extent_mem_boundaries (before after : List Token) : extent before ∈ boundaries (before ++ after) :=
  (mem_boundaries_append before after _).mpr (.inr ⟨0, zero_mem_boundaries after, rfl⟩)

lemma tagsAt_in_plain {language : String} {text : Text} {before after : List Token} {n : Nat}
    (tokens : ofUnits (Lexicon.ofLanguage language) text.toUnits = before ++ (List.replicate n plain ++ after))
    {k : Nat} (hk : k < n) :
    (Styling.ofText (Lexicon.ofLanguage language) text).tagsAt (extent before + k : Nat) = Style.code.tags := by
  have painted : (List.replicate n plain).flatMap (styles .code) = List.replicate n .code := by
    rw [List.flatMap_replicate]
    exact List.flatten_replicate_singleton
  change ((Styling.styles _).getD _ .code).tags = _
  rw [Array.getD_eq_getD_getElem?, Styling.getElem?_styles (Lexicon.markersInline_ofLanguage language), tokens,
    List.flatMap_append, List.getElem?_append_right (by rw [length_flatMap_styles]; exact Nat.le_add_right _ _),
    length_flatMap_styles, Nat.add_sub_cancel_left, List.flatMap_append, painted,
    List.getElem?_append_left (by rwa [List.length_replicate]), List.getElem?_replicate_of_lt hk]
  rfl

section

variable {a b : Units} {content : List Char}

lemma rust_eq : Lexicon.ofLanguage "rust" = Lexicon.rust := by decide +kernel

lemma ofUnits_behind (language : String) {a rest b : Units}
    (cut : a.length ∈ boundaries (ofUnits (Lexicon.ofLanguage language) (a ++ rest ++ b))) :
    ofUnits (Lexicon.ofLanguage language) (Text.ofUnits (a ++ rest ++ b)).toUnits =
      ofUnits (Lexicon.ofLanguage language) a ++ ofUnits (Lexicon.ofLanguage language) (rest ++ b) := by
  rw [List.append_assoc] at cut
  rw [Text.toUnits_ofUnits, List.append_assoc]
  exact ofUnits_append (Lexicon.markersInline_ofLanguage language) cut

variable (cut : a.length ∈ boundaries (ofUnits (Lexicon.ofLanguage "rust") (a ++ characterLiteral content ++ b)))
include cut

lemma character_literal_string (holds : CharacterContent content)
    (basic : ∀ c, content = [c] → c.toNat < 0x10000) :
    let text := Text.ofUnits (a ++ characterLiteral content ++ b)
    let stop := a.length + (characterLiteral content).length
    (∀ o : Nat, a.length ≤ o → o < stop →
      (Styling.ofText (Lexicon.ofLanguage "rust") text).tagsAt o = Style.string.tags) ∧
    stop ∈ boundaries (ofUnits (Lexicon.ofLanguage "rust") text.toUnits) := by
  intro text stop
  have start : extent (ofUnits (Lexicon.ofLanguage "rust") a) = a.length := extent_ofUnits _ a
  have tokens := ofUnits_behind "rust" cut
  rw [rust_eq, ofUnits_characterLiteral holds basic, ← rust_eq] at tokens
  refine ⟨fun o hs ho => ?_, ?_⟩
  · obtain ⟨k, rfl⟩ := Nat.exists_eq_add_of_le hs
    rw [← start]
    exact tagsAt_in_literal tokens rfl (Nat.lt_of_add_lt_add_left ho)
  · have edge := extent_mem_boundaries
      (ofUnits (Lexicon.ofLanguage "rust") a ++ [character (characterLiteral content).length])
      (ofUnits (Lexicon.ofLanguage "rust") b)
    rw [extent_append, start, List.append_assoc, List.singleton_append, ← tokens] at edge
    exact edge

lemma astral_literal_code {c : Char} (hc : content = [c]) (astral : 0x10000 ≤ c.toNat) :
    let text := Text.ofUnits (a ++ characterLiteral content ++ b)
    let quote := a.length + (characterLiteral content).length - 1
    (∀ o : Nat, a.length ≤ o → o < quote →
      (Styling.ofText (Lexicon.ofLanguage "rust") text).tagsAt o = Style.code.tags) ∧
    quote ∈ boundaries (ofUnits (Lexicon.ofLanguage "rust") text.toUnits) := by
  intro text quote
  subst hc
  have start : extent (ofUnits (Lexicon.ofLanguage "rust") a) = a.length := extent_ofUnits _ a
  have place : quote = a.length + 3 := by
    obtain ⟨u, v, hc, _, _⟩ := exists_pair_of_astral astral
    show a.length + (characterLiteral [c]).length - 1 = _
    rw [length_characterLiteral, List.flatMap_singleton, hc]
    rfl
  have tokens := ofUnits_behind "rust" cut
  rw [rust_eq, ofUnits_astralLiteral astral, ← rust_eq] at tokens
  rw [place]
  refine ⟨fun o hs ho => ?_, ?_⟩
  · obtain ⟨k, rfl⟩ := Nat.exists_eq_add_of_le hs
    rw [← start]
    exact tagsAt_in_plain tokens (Nat.lt_of_add_lt_add_left ho)
  · have edge := extent_mem_boundaries (ofUnits (Lexicon.ofLanguage "rust") a ++ List.replicate 3 plain)
      (ofUnits (Lexicon.ofLanguage "rust") (unit '\'' :: b))
    rw [extent_append, start, List.append_assoc, ← tokens] at edge
    exact edge

end

/-- A character literal of Rust is a string of its own exactly when it does not hold a character beyond the
basic plane as such. One that does is code up to its second quote, and that quote begins a token. -/
theorem character_literal_string_iff_basic (a b : Units) {content : List Char} (holds : CharacterContent content)
    (cut : a.length ∈ boundaries (ofUnits (Lexicon.ofLanguage "rust") (a ++ characterLiteral content ++ b))) :
    let text := Text.ofUnits (a ++ characterLiteral content ++ b)
    let tagsAt := (Styling.ofText (Lexicon.ofLanguage "rust") text).tagsAt
    let boundary := fun i => i ∈ boundaries (ofUnits (Lexicon.ofLanguage "rust") text.toUnits)
    let stop := a.length + (characterLiteral content).length
    (((∀ o : Nat, a.length ≤ o → o < stop → tagsAt o = Style.string.tags) ∧ boundary stop) ↔
      ∀ c, content = [c] → c.toNat < 0x10000) ∧
    ∀ c, content = [c] → 0x10000 ≤ c.toNat →
      (∀ o : Nat, a.length ≤ o → o < stop - 1 → tagsAt o = Style.code.tags) ∧ boundary (stop - 1) := by
  intro text tagsAt boundary stop
  refine ⟨⟨fun whole c hc => ?_, character_literal_string cut holds⟩, fun c => astral_literal_code cut⟩
  by_contra high
  have opens : a.length < stop - 1 := by
    show a.length < a.length + (characterLiteral content).length - 1
    rw [length_characterLiteral]
    omega
  have code := (astral_literal_code cut hc (Nat.not_lt.mp high)).1 a.length (Nat.le_refl _) opens
  have string := whole.1 a.length (Nat.le_refl _) (by omega)
  exact absurd (string.symm.trans code) (by decide)

-- a lifetime is code
example : ofUnits Lexicon.rust (units "&'a u8") = List.replicate 6 plain := by
  decide +kernel

theorem character_literal_string_iff_basic_at_escape :
    let a := units "x('\\'', "
    let content := ['\\', 'u', '\x7b', '1', 'F', '6', '0', '0', '\x7d']
    let b := units ", 'a, '😀')"
    let text := Text.ofUnits (a ++ characterLiteral content ++ b)
    let stop := a.length + (characterLiteral content).length
    CharacterContent content ∧ a.length ∈ boundaries (ofUnits (Lexicon.ofLanguage "rust") text.toUnits) ∧
      (∀ c, content = [c] → c.toNat < 0x10000) ∧
      (∀ o : Nat, a.length ≤ o → o < stop →
        (Styling.ofText (Lexicon.ofLanguage "rust") text).tagsAt o = Style.string.tags) ∧
        stop ∈ boundaries (ofUnits (Lexicon.ofLanguage "rust") text.toUnits) := by
  intro a content b text stop
  have hex : ∀ digit ∈ ['1', 'F', '6', '0', '0'], digit.isHexDigit = true := List.all_eq_true.mp (by decide)
  have holds : CharacterContent content := .scalar (List.cons_ne_nil _ _) hex
  have cut : a.length ∈ boundaries (ofUnits (Lexicon.ofLanguage "rust") text.toUnits) := by decide +kernel
  have escape : ∀ c, content = [c] → c.toNat < 0x10000 := by
    intro c hc
    simp [content] at hc
  have literal := (character_literal_string_iff_basic a b holds cut).1.mpr escape
  exact ⟨holds, cut, escape, literal⟩

theorem astral_literal_not_string :
    let literal := characterLiteral ['😀']
    let text := Text.ofUnits ([] ++ literal ++ [])
    CharacterContent ['😀'] ∧ 0 ∈ boundaries (ofUnits (Lexicon.ofLanguage "rust") text.toUnits) ∧
      literal.length = 4 ∧
        ∀ o : Nat, o < 4 → (Styling.ofText (Lexicon.ofLanguage "rust") text).tagsAt o = Style.code.tags := by
  intro literal text
  exact ⟨.plain (by decide) (by decide) (by decide), by decide +kernel, by decide, by decide +kernel⟩

end Token

end Counterpart
