import Counterpart.Proofs.Token.Tiling
import Counterpart.Styling

namespace Counterpart

namespace Lexicon

lemma ofLanguage_of_builtin {motive : Lexicon → Prop} (common : motive cLike)
    (known : ∀ entry ∈ builtin, motive entry.2) (language : String) : motive (ofLanguage language) := by
  rw [ofLanguage]
  cases h : builtin.lookup language with
  | none => exact common
  | some lex =>
    obtain ⟨before, after, hb, _⟩ := List.lookup_eq_some_iff.mp h
    exact known (language, lex) (hb ▸ List.mem_append_right before List.mem_cons_self)

lemma markersInline_ofLanguage (language : String) : (ofLanguage language).MarkersInline :=
  ofLanguage_of_builtin (motive := MarkersInline) (by decide) (by decide) language

end Lexicon

namespace Token

def boundaries : List Token → List Nat
  | [] => [0]
  | token :: tokens => 0 :: (boundaries tokens).map (token.length + ·)

lemma mem_boundaries_cons (token : Token) (tokens : List Token) (i : Nat) :
    i ∈ boundaries (token :: tokens) ↔ i = 0 ∨ ∃ j ∈ boundaries tokens, i = token.length + j := by
  simp [boundaries, eq_comm]

lemma zero_mem_boundaries (tokens : List Token) : 0 ∈ boundaries tokens := by
  cases tokens <;> simp [boundaries]

lemma mem_boundaries_append (first second : List Token) (i : Nat) :
    i ∈ boundaries (first ++ second) ↔
      i ∈ boundaries first ∨ ∃ j ∈ boundaries second, i = extent first + j := by
  induction first generalizing i with
  | nil =>
    have hz : i = 0 → i ∈ boundaries second := fun h => h ▸ zero_mem_boundaries second
    simpa [boundaries, extent] using hz
  | cons token first ih =>
    rw [List.cons_append, mem_boundaries_cons, mem_boundaries_cons, extent, or_assoc]
    apply or_congr_right
    constructor
    · rintro ⟨j, hj, rfl⟩
      rcases (ih j).mp hj with hf | ⟨k, hk, rfl⟩
      · exact .inl ⟨j, hf, rfl⟩
      · exact .inr ⟨k, hk, by omega⟩
    · rintro (⟨j, hj, rfl⟩ | ⟨k, hk, rfl⟩)
      · exact ⟨j, (ih j).mpr (.inl hj), rfl⟩
      · exact ⟨extent first + k, (ih _).mpr (.inr ⟨k, hk, rfl⟩), by omega⟩

lemma eq_of_blockCommentOf? {us : Units} {pairs : List (Units × Units)} {token : Token}
    (h : blockCommentOf? us pairs = some token) :
    ∃ opener body closer, token = blockComment opener body closer := by
  induction pairs with
  | nil => contradiction
  | cons pair pairs ih =>
    obtain ⟨opener, closer⟩ := pair
    simp only [blockCommentOf?] at h
    split at h
    · obtain rfl := Option.some.inj h
      split <;> exact ⟨_, _, _, rfl⟩
    · exact ih h

lemma eq_of_lineCommentOf? {us : Units} {markers : List Units} {token : Token}
    (h : lineCommentOf? us markers = some token) : ∃ marker length, token = lineComment marker length := by
  induction markers with
  | nil => contradiction
  | cons marker markers ih =>
    simp only [lineCommentOf?] at h
    split at h
    · exact ⟨_, _, (Option.some.inj h).symm⟩
    · exact ih h

lemma overhang_lineCommentOf? {us : Units} {markers : List Units} {token : Token}
    (inline : ∀ marker ∈ markers, lineFeed ∉ marker) (h : lineCommentOf? us markers = some token) :
    token.overhang = 0 := by
  induction markers with
  | nil => contradiction
  | cons marker markers ih =>
    simp only [lineCommentOf?] at h
    split at h
    · next ho =>
      obtain rfl := Option.some.inj h
      have hm := length_le_takeWhile (Bool.and_eq_true_iff.mp ho).2 (inline marker List.mem_cons_self)
      simp only [overhang]
      omega
    · exact ih (fun m hm => inline m (List.mem_cons_of_mem _ hm)) h

section

variable {lex : Lexicon} (inline : lex.MarkersInline)
include inline

lemma ofUnits_append {a b : Units} (h : a.length ∈ boundaries (ofUnits lex (a ++ b))) :
    ofUnits lex (a ++ b) = ofUnits lex a ++ ofUnits lex b := by
  induction a using token_induction lex with
  | nil => rfl
  | cons u us ih =>
    rw [List.cons_append, ofUnits_cons, mem_boundaries_cons] at h
    obtain h | ⟨j, hj, hl⟩ := h
    · contradiction
    · rw [List.length_cons] at hl
      have hn := next_append inline (by omega : (next lex u (us ++ b)).length ≤ us.length + 1)
      rw [hn] at hj hl
      have hd : (u :: (us ++ b)).drop (next lex u us).length = (u :: us).drop (next lex u us).length ++ b := by
        rw [← List.cons_append, List.drop_append_of_le_length (by rw [List.length_cons]; omega)]
      have hlen : ((u :: us).drop (next lex u us).length).length = j := by
        rw [List.length_drop, List.length_cons]
        omega
      rw [hd] at hj
      rw [List.cons_append, ofUnits_cons, hn, hd, ih (by rwa [hlen]), ofUnits_cons, List.cons_append]

lemma overhang_next (u : UInt16) (us : Units) : (next lex u us).overhang = 0 := by
  rcases next_cases lex u us with h | h | ⟨_, h⟩ | ⟨_, _, _, h⟩ | h
  · obtain ⟨_, _, _, hb⟩ := eq_of_blockCommentOf? h
    rw [hb]
    rfl
  · exact overhang_lineCommentOf? inline h
  all_goals
    rw [h]
    rfl

lemma overhang_ofUnits (us : Units) : ∀ token ∈ ofUnits lex us, token.overhang = 0 := by
  induction us using token_induction lex with
  | nil => simp
  | cons u us ih =>
    intro token ht
    rw [ofUnits_cons, List.mem_cons] at ht
    obtain rfl | ht := ht
    · exact overhang_next inline u us
    · exact ih token ht

end

end Token

namespace Styling

lemma size_append_styles (painted : Array Style) (token : Token) (under : Style) :
    (painted ++ token.styles under).size = painted.size + token.length := by
  rw [← Array.length_toList, Array.toList_appendList, List.length_append, Token.length_styles,
    Array.length_toList]

lemma size_paintOnto (painted : Array Style) (covered : Nat) (tokens : List Token) :
    (paintOnto painted covered tokens).size = painted.size + Token.extent tokens := by
  induction tokens generalizing painted covered with
  | nil => rfl
  | cons token tokens ih =>
    rw [paintOnto, ih, size_append_styles, Token.extent, Nat.add_assoc]

lemma paintOnto_eq (painted : Array Style) {tokens : List Token} (h : ∀ token ∈ tokens, token.overhang = 0) :
    (paintOnto painted 0 tokens).toList = painted.toList ++ tokens.flatMap (Token.styles .code) := by
  induction tokens generalizing painted with
  | nil => simp [paintOnto]
  | cons token tokens ih =>
    obtain ⟨ht, hr⟩ := List.forall_mem_cons.mp h
    rw [paintOnto, ht, Nat.zero_sub, Nat.max_self, ih _ hr]
    simp

lemma styles_ofText {lex : Lexicon} (inline : lex.MarkersInline) (us : Units) :
    (ofText lex (.ofUnits us)).styles.toList = (Token.ofUnits lex us).flatMap (Token.styles .code) := by
  rw [ofText, ofTokens, Text.toUnits_ofUnits, paintOnto_eq _ (Token.overhang_ofUnits inline us)]
  rfl

lemma getElem?_styles {lex : Lexicon} (inline : lex.MarkersInline) (text : Text) (o : Nat) :
    (ofText lex text).styles[o]? = ((Token.ofUnits lex text.toUnits).flatMap (Token.styles .code))[o]? := by
  have whole : Text.ofUnits text.toUnits = text := by simp [Text.ofUnits, Text.toUnits]
  rw [← styles_ofText inline, whole, Array.getElem?_toList]

lemma size_styles (lex : Lexicon) (us : Units) : (ofText lex (.ofUnits us)).styles.size = us.length := by
  rw [ofText, ofTokens, Text.toUnits_ofUnits, size_paintOnto, Token.extent_ofUnits, Array.size_empty,
    Nat.zero_add]

lemma tagsAt_append {whole first second : Styling} (h : whole.styles = first.styles ++ second.styles) (o : Nat) :
    whole.tagsAt o = if o < first.styles.size then first.tagsAt o
      else second.tagsAt (o - first.styles.size : Nat) := by
  show (whole.styles.getD o .code).tags = if _ then (first.styles.getD o .code).tags else
    (second.styles.getD (o - first.styles.size) .code).tags
  simp only [h, Array.getD_eq_getD_getElem?, Array.getElem?_append]
  split <;> rfl

/-- Cut where a token begins or the text ends, a text has the styles of its parts one after the other, and
their boundaries. -/
theorem ofText_append_of_boundary (language : String) (a b : Units)
    (cut : a.length ∈ Token.boundaries (Token.ofUnits (Lexicon.ofLanguage language) (a ++ b))) :
    let lex := Lexicon.ofLanguage language
    let styling := fun us => ofText lex (.ofUnits us)
    (styling (a ++ b)).styles = (styling a).styles ++ (styling b).styles ∧
    (∀ o : Nat, o < a.length → (styling (a ++ b)).tagsAt o = (styling a).tagsAt o) ∧
    (∀ o : Nat, a.length ≤ o → o < a.length + b.length →
      (styling (a ++ b)).tagsAt o = (styling b).tagsAt (o - a.length : Nat)) ∧
    ∀ i, i ∈ Token.boundaries (Token.ofUnits lex (a ++ b)) ↔
      i ∈ Token.boundaries (Token.ofUnits lex a) ∨
        ∃ j ∈ Token.boundaries (Token.ofUnits lex b), i = a.length + j := by
  intro lex styling
  have inline := Lexicon.markersInline_ofLanguage language
  have tokens := Token.ofUnits_append inline cut
  have styles : (styling (a ++ b)).styles = (styling a).styles ++ (styling b).styles := by
    apply Array.toList_inj.mp
    rw [Array.toList_append, styles_ofText inline, styles_ofText inline, styles_ofText inline, tokens,
      List.flatMap_append]
  have size : (styling a).styles.size = a.length := size_styles lex a
  refine ⟨styles, fun o ho => ?_, fun o hl _ => ?_, fun i => ?_⟩
  · rw [tagsAt_append styles, size, if_pos ho]
  · rw [tagsAt_append styles, size, if_neg (Nat.not_lt.mpr hl)]
  · rw [tokens, Token.mem_boundaries_append, Token.extent_ofUnits]

theorem ofText_append_behind_character :
    let a := units "x('\\'') /* \" */"
    let b := units "'a + \"b\\\"\" // c"
    let styling := fun us => ofText (Lexicon.ofLanguage "rust") (.ofUnits us)
    a.length ∈ Token.boundaries (Token.ofUnits (Lexicon.ofLanguage "rust") (a ++ b)) ∧
      (styling (a ++ b)).styles = (styling a).styles ++ (styling b).styles := by
  intro a b styling
  have cut : a.length ∈ Token.boundaries (Token.ofUnits (Lexicon.ofLanguage "rust") (a ++ b)) := by
    decide +kernel
  exact ⟨cut, (ofText_append_of_boundary "rust" a b cut).1⟩

end Styling

end Counterpart
