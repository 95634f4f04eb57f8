import Counterpart.Bracket
import Counterpart.Proofs.Scene
import Counterpart.Proofs.Token.Boundary

namespace Counterpart

def Lexicon.QuotesGlyphs (lex : Lexicon) : Prop :=
  ∀ quote ∈ lex.quotes ++ lex.charQuote.toList, quote.all isQuoteGlyph = true

instance (lex : Lexicon) : Decidable lex.QuotesGlyphs :=
  inferInstanceAs (Decidable (∀ quote ∈ lex.quotes ++ lex.charQuote.toList, quote.all isQuoteGlyph = true))

lemma Lexicon.quotesGlyphs_ofLanguage (language : String) : (ofLanguage language).QuotesGlyphs :=
  ofLanguage_of_builtin (motive := QuotesGlyphs) (by decide) (by decide) language

lemma Lexicon.QuotesGlyphs.isQuoteGlyph {lex : Lexicon} (glyphs : lex.QuotesGlyphs) {u : UInt16}
    (h : lex.isQuote u = true ∨ lex.isCharQuote u = true) : isQuoteGlyph u = true := by
  have hquote : [u] ∈ lex.quotes ++ lex.charQuote.toList := by
    rcases h with hq | hc
    · exact List.mem_append_left _ (List.contains_iff_mem.mp hq)
    · rw [eq_of_beq hc]
      exact List.mem_append_right _ (List.mem_singleton_self _)
  have hg := glyphs [u] hquote
  rwa [List.all_cons, List.all_nil, Bool.and_true] at hg

namespace Token

def isLiteral : Token → Bool
  | string _ => true
  | character _ => true
  | _ => false

lemma eq_string_iff_of_mem_styles {token : Token} {style : Style} (h : style ∈ token.styles .code) :
    style = .string ↔ token.isLiteral = true := by
  cases token <;> simp only [styles, isLiteral, List.mem_append, List.mem_replicate, List.mem_singleton] at h ⊢
  case plain => simp [h]
  case blockComment => rcases h with (⟨_, rfl⟩ | ⟨_, rfl⟩) | ⟨_, rfl⟩ <;> simp
  case lineComment => rcases h with ⟨_, rfl⟩ | ⟨_, rfl⟩ <;> simp
  case string => simp [h.2]
  case character => simp [h.2]

def stylesOf (lex : Lexicon) (us : Units) : List Style := (ofUnits lex us).flatMap (styles .code)

lemma stylesOf_of_next {lex : Lexicon} {u : UInt16} {us taken after : Units} (hs : u :: us = taken ++ after)
    (hl : (next lex u us).length = taken.length) :
    stylesOf lex (u :: us) = (next lex u us).styles .code ++ stylesOf lex after := by
  rw [stylesOf, ofUnits_cons, hl, hs, List.drop_left, List.flatMap_cons, stylesOf]

lemma length_flatMap_styles (tokens : List Token) : (tokens.flatMap (styles .code)).length = extent tokens := by
  induction tokens with
  | nil => rfl
  | cons token tokens ih => rw [List.flatMap_cons, List.length_append, length_styles, ih, extent]

lemma length_stylesOf (lex : Lexicon) (us : Units) : (stylesOf lex us).length = us.length := by
  rw [stylesOf, length_flatMap_styles, extent_ofUnits]

lemma extent_append (first second : List Token) : extent (first ++ second) = extent first + extent second := by
  induction first with
  | nil => rw [List.nil_append, extent, Nat.zero_add]
  | cons token first ih => rw [List.cons_append, extent, ih, extent, Nat.add_assoc]

lemma style_in_token (before after : List Token) {token : Token} {k : Nat} (hk : k < token.length) :
    ((before ++ token :: after).flatMap (styles .code))[extent before + k]? = some .string ↔
      token.isLiteral = true := by
  have hl : k < (token.styles .code).length := by rwa [length_styles]
  have hs : ((before ++ token :: after).flatMap (styles .code))[extent before + k]? =
      (token.styles .code)[k]? := by
    rw [List.flatMap_append, List.getElem?_append_right
      (by rw [length_flatMap_styles]; exact Nat.le_add_right _ _),
      length_flatMap_styles, Nat.add_sub_cancel_left, List.flatMap_cons, List.getElem?_append_left hl]
  rw [hs, List.getElem?_eq_getElem hl, Option.some.injEq]
  exact eq_string_iff_of_mem_styles (List.getElem_mem hl)

variable {lex : Lexicon} {us : Units} {before after : List Token} {token : Token}

lemma next_of_ofUnits (h : ofUnits lex us = before ++ token :: after) :
    ∃ u rest, us.drop (extent before) = u :: rest ∧ token = next lex u rest := by
  induction before generalizing us with
  | nil =>
    cases us with
    | nil => contradiction
    | cons u us =>
      rw [ofUnits_cons, List.nil_append] at h
      exact ⟨u, us, rfl, (List.cons.inj h).1.symm⟩
  | cons first before ih =>
    cases us with
    | nil => contradiction
    | cons u us =>
      rw [ofUnits_cons, List.cons_append] at h
      obtain ⟨hf, hr⟩ := List.cons.inj h
      obtain ⟨v, rest, hd, ht⟩ := ih hr
      rw [List.drop_drop, hf] at hd
      exact ⟨v, rest, hd, ht⟩

lemma length_pos_of_ofUnits (h : ofUnits lex us = before ++ token :: after) : 0 < token.length := by
  obtain ⟨u, rest, _, rfl⟩ := next_of_ofUnits h
  exact length_next_pos lex u rest

lemma isQuote_of_isLiteral {u : UInt16} {rest : Units} (h : (next lex u rest).isLiteral = true) :
    lex.isQuote u = true ∨ lex.isCharQuote u = true := by
  rcases next_cases lex u rest with hb | hl | ⟨hq, _⟩ | ⟨hc, _⟩ | hp
  · obtain ⟨_, _, _, he⟩ := eq_of_blockCommentOf? hb
    rw [he] at h
    contradiction
  · obtain ⟨_, _, he⟩ := eq_of_lineCommentOf? hl
    rw [he] at h
    contradiction
  · exact .inl hq
  · exact .inr hc
  · rw [hp] at h
    contradiction

lemma quote_of_ofUnits (glyphs : lex.QuotesGlyphs) (h : ofUnits lex us = before ++ token :: after)
    (literal : token.isLiteral = true) : ∃ u, us[extent before]? = some u ∧ isQuoteGlyph u = true := by
  obtain ⟨u, rest, hd, rfl⟩ := next_of_ofUnits h
  exact ⟨u, by rw [← List.head?_drop, hd, List.head?_cons],
    glyphs.isQuoteGlyph (isQuote_of_isLiteral literal)⟩

end Token

namespace Scene

lemma tags_ofText (text : Text) (language : String) (settings : Settings) (selecting : Bool) (o : Nat) :
    (ofText text language settings selecting).tags o =
      ((Token.stylesOf (Lexicon.ofLanguage language) text.toUnits)[o]?.getD .code).tags := by
  have whole : Text.ofUnits text.toUnits = text := by simp [Text.ofUnits, Text.toUnits]
  have hs := Styling.styles_ofText (Lexicon.markersInline_ofLanguage language) text.toUnits
  rw [whole] at hs
  rw [Token.stylesOf, ← hs, Array.getElem?_toList]
  change (Array.getD _ o Style.code).tags = _
  rw [Array.getD_eq_getD_getElem?]

lemma inString_ofText_iff (text : Text) (language : String) (settings : Settings) (selecting : Bool) (o : Nat) :
    (ofText text language settings selecting).inString o = true ↔
      ((Token.ofUnits (Lexicon.ofLanguage language) text.toUnits).flatMap (Token.styles .code))[o]? =
        some .string := by
  rw [← Styling.getElem?_styles (Lexicon.markersInline_ofLanguage language)]
  change ((Styling.styles _).getD o .code).tags.string = true ↔ _
  rw [Array.getD_eq_getD_getElem?]
  cases (Styling.ofText (Lexicon.ofLanguage language) text).styles[o]? with
  | none => simp [Style.tags]
  | some style => cases style <;> simp [Style.tags]

lemma tags_outside (text : Text) (language : String) (settings : Settings) (selecting : Bool) (offset : Int)
    (h : (ofText text language settings selecting).unit? offset = none) :
    (ofText text language settings selecting).tags offset = Style.code.tags := by
  cases offset with
  | negSucc offset => rfl
  | ofNat offset =>
    have hl : text.length ≤ offset := Array.getElem?_eq_none_iff.mp h
    have whole : Text.ofUnits text.toUnits = text := by simp [Text.ofUnits, Text.toUnits]
    have hs := Styling.size_styles (Lexicon.ofLanguage language) text.toUnits
    rw [whole, Text.length_toUnits] at hs
    change ((Styling.styles _).getD offset Style.code).tags = _
    rw [Array.getD_eq_getD_getElem?, Array.getElem?_eq_none (hs ▸ hl)]
    rfl

lemma inString_outside (text : Text) (language : String) (settings : Settings) (selecting : Bool) (offset : Int)
    (h : (ofText text language settings selecting).unit? offset = none) :
    (ofText text language settings selecting).inString offset = false := by
  rw [inString, tags_outside text language settings selecting offset h]
  rfl

section

variable {text : Text} {language : String} {before after : List Token} {token : Token}
  (tokens : Token.ofUnits (Lexicon.ofLanguage language) text.toUnits = before ++ token :: after)
  (settings : Settings) (selecting : Bool)
include tokens

lemma inString_in_token {k : Nat} (hk : k < token.length) :
    (ofText text language settings selecting).inString ((Token.extent before + k : Nat) : Int) =
      token.isLiteral := by
  rw [Bool.eq_iff_iff, inString_ofText_iff, tokens]
  exact Token.style_in_token before after hk

lemma inString_behind :
    (ofText text language settings selecting).inString ((Token.extent before + token.length : Nat) : Int) =
      after.head?.any Token.isLiteral := by
  cases after with
  | nil =>
    rw [Bool.eq_iff_iff, inString_ofText_iff, tokens, List.getElem?_eq_none]
    · simp
    · rw [Token.length_flatMap_styles, Token.extent_append]
      exact Nat.le_refl _
  | cons follower after =>
    have hsplit := tokens.trans (List.append_cons before token (follower :: after))
    have hin := inString_in_token hsplit settings selecting (Token.length_pos_of_ofUnits hsplit)
    rw [Token.extent_append] at hin
    exact hin

lemma inString_behind_of_no_glyph
    (h : ∀ u, text.units[Token.extent before + token.length]? = some u → isQuoteGlyph u = false) :
    (ofText text language settings selecting).inString ((Token.extent before + token.length : Nat) : Int) =
      false := by
  rw [inString_behind tokens]
  cases after with
  | nil => rfl
  | cons follower after =>
    rw [List.head?_cons, Option.any_some, Bool.eq_false_iff]
    intro literal
    have hsplit := tokens.trans (List.append_cons before token (follower :: after))
    obtain ⟨u, hu, glyph⟩ := Token.quote_of_ofUnits (Lexicon.quotesGlyphs_ofLanguage language) hsplit literal
    rw [Token.extent_append, Text.toUnits, Array.getElem?_toList] at hu
    rw [h u hu] at glyph
    contradiction

lemma inString_ahead :
    (ofText text language settings selecting).inString ((Token.extent before : Int) - 1) =
      before.getLast?.any Token.isLiteral := by
  rcases List.eq_nil_or_concat before with rfl | ⟨init, last, rfl⟩
  · rfl
  · have hsplit : Token.ofUnits (Lexicon.ofLanguage language) text.toUnits = init ++ last :: token :: after := by
      rw [tokens, List.concat_eq_append, List.append_assoc, List.singleton_append]
    have hpos := Token.length_pos_of_ofUnits hsplit
    have hin := inString_in_token hsplit settings selecting (Nat.sub_lt hpos Nat.one_pos)
    have hplace : (Token.extent (init ++ [last]) : Int) - 1 = (Token.extent init + (last.length - 1) : Nat) := by
      rw [Token.extent_append, Token.extent, Token.extent]
      omega
    rw [List.concat_eq_append, hplace, hin, List.getLast?_concat]
    rfl

end

end Scene

end Counterpart
