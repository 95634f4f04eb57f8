import Counterpart.Proofs.Delimiter.Header
import Counterpart.Proofs.LineBreak.Partner

namespace Counterpart

open Counterpart.Units

namespace Scene

def SolidAt (scene : Scene) (o : Nat) : Prop := ∃ u, scene.unit? o = some u ∧ u ≠ lineFeed

def Encloses (scene : Scene) (mark destination : Int) : Prop :=
  ∃ first last : Nat, first ≤ last ∧ scene.SolidAt first ∧ scene.SolidAt last ∧
    (mark = first ∧ destination = last + 1 ∨ mark = last + 1 ∧ destination = first)

variable {scene wide : Scene}

lemma SolidAt.lt_length {o : Nat} (solid : scene.SolidAt o) : o < scene.document.length := by
  obtain ⟨u, hu, _⟩ := solid
  exact Document.lt_length_of_unit hu

lemma SolidAt.place_succ {o : Nat} (solid : scene.SolidAt o) :
    scene.document.text.toUnits.place (o + 1) = scene.document.text.toUnits.place o + 1 := by
  obtain ⟨u, hu, hs⟩ := solid
  exact Delimiter.place_succ_of_solid hu hs

lemma Widens.unit?_cases (h : scene.Widens wide) (o : Nat) :
    (∃ u, scene.unit? o = some u ∧ u ≠ lineFeed ∧
      wide.unit? (scene.document.text.toUnits.place o : Nat) = some u) ∨ scene.unit? o = some lineFeed ∧
        wide.unit? (scene.document.text.toUnits.place o : Nat) = some carriageReturn ∨
      scene.unit? o = none ∧ wide.unit? (scene.document.text.toUnits.place o : Nat) = none := by
  cases hu : scene.unit? o with
  | none =>
    have hl : scene.document.length ≤ o := Array.getElem?_eq_none_iff.mp hu
    have hw : wide.document.length ≤ scene.document.text.toUnits.place o := by
      rw [h.document.length_eq]
      exact (place_strictMono _).monotone hl
    exact .inr (.inr ⟨rfl, Array.getElem?_eq_none hw⟩)
  | some u =>
    by_cases hf : u = lineFeed
    · subst hf
      exact .inr (.inl ⟨rfl, (h.document.units_place_lineFeed hu).1⟩)
    · exact .inl ⟨u, rfl, hf, h.unit?_place hu hf⟩

end Scene

namespace Delimiter

def widen (text : Text) (d : Delimiter) : Delimiter := ⟨text.place d.start, text.place d.offset, d.forward⟩

variable {scene wide : Scene}

lemma widen_facing {o : Nat} (solid : scene.SolidAt o) (forward : Bool) :
    (facing o forward).widen scene.document.text = facing (scene.document.text.toUnits.place o : Nat) forward := by
  have next : scene.document.text.place ((o : Int) + 1) = (scene.document.text.toUnits.place o : Nat) + 1 := by
    have hn := Text.place_natCast scene.document.text (o + 1)
    rw [solid.place_succ] at hn
    exact hn
  cases forward <;> simp [widen, facing, Text.place_natCast, next]

lemma at?_cases {o : Nat} {d : Delimiter} (h : at? scene o = some d) :
    (∃ b : Bracket, scene.unit? o = some b.unit ∧ d = facing o b.opening) ∨
      ∃ u forward, scene.unit? o = some u ∧ isQuoteGlyph u = true ∧ scene.inString o = true ∧
      d = facing o forward := by
  rw [at?] at h
  split at h
  · contradiction
  · obtain ⟨forward, hf, rfl⟩ := Option.map_eq_some_iff.mp h
    rw [direction?] at hf
    split at hf
    · contradiction
    · next u hu =>
      split at hf
      · next b hb =>
        obtain rfl := Option.some.inj hf
        exact .inl ⟨b, Bracket.ofUnit?_eq_some_iff.mp hb ▸ hu, rfl⟩
      · obtain ⟨hq, _⟩ := Option.ite_none_right_eq_some.mp hf
        rw [Bool.and_eq_true] at hq
        exact .inr ⟨u, forward, hu, hq.1, hq.2, rfl⟩

lemma solidAt_of_glyph {o : Nat} {u : UInt16} (hu : scene.unit? o = some u) (glyph : isQuoteGlyph u = true) :
    scene.SolidAt o := by
  refine ⟨u, hu, ?_⟩
  rintro rfl
  contradiction

lemma solidAt_of_bracket {o : Nat} {b : Bracket} (hb : scene.unit? o = some b.unit) : scene.SolidAt o :=
  ⟨b.unit, hb, (unit_solid b).1⟩

lemma solidAt_of_at? {o : Nat} {d : Delimiter} (h : at? scene o = some d) : scene.SolidAt o := by
  rcases at?_cases h with ⟨b, hb, _⟩ | ⟨u, _, hu, glyph, _⟩
  · exact solidAt_of_bracket hb
  · exact solidAt_of_glyph hu glyph

lemma partner_cases (styled : scene.Styled) {o p : Nat} {d : Delimiter} (ha : at? scene o = some d)
    (hp : partner? scene d = some p) :
    scene.SolidAt p ∧ (d = facing o true ∧ o ≤ p ∨ d = facing o false ∧ p ≤ o) := by
  rcases at?_cases ha with ⟨⟨s, opening⟩, hb, rfl⟩ | ⟨u, forward, hu, glyph, hs, rfl⟩
  · have ends : ∀ {zone q r}, Bracket.Paired (counted scene zone s) q r →
        q < r ∧ scene.SolidAt q ∧ scene.SolidAt r := by
      rintro zone q r ⟨hlt, _, hq, hr, _⟩
      obtain ⟨_, hq, _⟩ := (counted_eq_some_iff scene zone s q _).mp hq
      obtain ⟨_, hr, _⟩ := (counted_eq_some_iff scene zone s r _).mp hr
      exact ⟨hlt, solidAt_of_bracket hq, solidAt_of_bracket hr⟩
    cases opening with
    | true =>
      obtain ⟨hlt, _, solid⟩ := ends ((partner?_opening styled.apart hb).mp hp)
      exact ⟨solid, .inl ⟨rfl, Nat.le_of_lt hlt⟩⟩
    | false =>
      obtain ⟨hlt, solid, _⟩ := ends ((partner?_closing styled.apart hb).mp hp)
      exact ⟨solid, .inr ⟨rfl, Nat.le_of_lt hlt⟩⟩
  · have alike := stringsAlike_of_styled styled
    cases forward with
    | true =>
      obtain ⟨hle, _, _, hq⟩ := (partner?_forward_iff alike hu glyph hs).mp hp
      exact ⟨solidAt_of_glyph hq glyph, .inl ⟨rfl, hle⟩⟩
    | false =>
      obtain ⟨hle, _, _, hq⟩ := (partner?_backward_iff alike hu glyph hs).mp hp
      exact ⟨solidAt_of_glyph hq glyph, .inr ⟨rfl, hle⟩⟩

lemma destination?_of_none {d : Delimiter} (hp : partner? scene d = none) : destination? scene d = none := by
  rw [destination?, bound?, hp]
  rfl

lemma destination?_of_some {d : Delimiter} {p : Nat} (hp : partner? scene d = some p) : destination? scene d =
    some (restingPlace (if d.forward then (p : Int) + 1 else p) d.forward scene.selecting) := by
  rw [destination?, bound?, hp]
  rfl

lemma encloses_destination? (styled : scene.Styled) (extending : scene.selecting = true) {o : Nat} {d : Delimiter}
    (ha : at? scene o = some d) : ∀ destination ∈ destination? scene d,
      scene.Encloses d.start destination := by
  intro destination hd
  cases hp : partner? scene d with
  | none =>
    rw [destination?_of_none hp] at hd
    contradiction
  | some p =>
    rw [destination?_of_some hp, extending] at hd
    obtain rfl := Option.some.inj hd
    have solid := solidAt_of_at? ha
    obtain ⟨partner, ⟨rfl, hle⟩ | ⟨rfl, hle⟩⟩ := partner_cases styled ha hp
    · exact ⟨o, p, hle, solid, partner, .inl ⟨rfl, rfl⟩⟩
    · exact ⟨p, o, hle, partner, solid, .inr ⟨rfl, rfl⟩⟩

variable (h : scene.Widens wide) {o : Nat}
include h

lemma direction?_place (o : Nat) :
    direction? wide (scene.document.text.toUnits.place o : Nat) = direction? scene o := by
  rcases h.unit?_cases o with ⟨u, hu, solid, hw⟩ | ⟨hf, hw⟩ | ⟨hu, hw⟩
  · rw [direction?, direction?, hu, hw]
    simp only []
    cases Bracket.ofUnit? u with
    | some b => rfl
    | none =>
      rw [inString_place h hu solid]
      cases hq : isQuoteGlyph u && scene.inString o with
      | false => rfl
      | true =>
        rw [Bool.and_eq_true] at hq
        have alike := stringsAlike_of_styled h.styled
        have alikeWide := stringsAlike_of_styled h.styledWide
        have hws := (inString_place h hu solid).trans hq.2
        simp only [if_true]
        rw [alike _ _ hq.2, alikeWide _ _ hws]
        exact congrArg some (inString_behind_place h hu hq.1)
  · rw [direction?, direction?, hf, hw]
    rfl
  · rw [direction?, direction?, hu, hw]

lemma at?_place (ho : o ≤ scene.document.length) :
    at? wide (scene.document.text.toUnits.place o : Nat) = (at? scene o).map (widen scene.document.text) := by
  rw [at?, h.guarded o ho, direction?_place h o]
  cases ha : at? scene o with
  | none =>
    rw [at?] at ha
    split at ha
    · next hg => rw [if_pos hg, Option.map_none]
    · next hg =>
      rw [if_neg hg, Option.map_none, Option.map_eq_none_iff]
      exact Option.map_eq_none_iff.mp ha
  | some d =>
    have solid := solidAt_of_at? ha
    rw [at?] at ha
    split at ha
    · contradiction
    · next hg =>
      obtain ⟨forward, hf, rfl⟩ := Option.map_eq_some_iff.mp ha
      rw [if_neg hg, hf, Option.map_some, Option.map_some, widen_facing solid]

lemma partner?_place {d : Delimiter} (ha : at? scene o = some d) :
    partner? wide (d.widen scene.document.text) = (partner? scene d).map scene.document.text.toUnits.place := by
  have solid := solidAt_of_at? ha
  rcases at?_cases ha with ⟨b, hb, rfl⟩ | ⟨u, forward, hu, glyph, hs, rfl⟩
  · rw [widen_facing solid]
    exact partner?_bracket_place h hb
  · rw [widen_facing solid]
    exact partner?_quote_place h hu glyph hs forward

lemma destination?_place {d : Delimiter} (ha : at? scene o = some d) :
    destination? wide (d.widen scene.document.text) = (destination? scene d).map scene.document.text.place := by
  have hw := partner?_place h ha
  cases hp : partner? scene d with
  | none =>
    rw [hp] at hw
    rw [destination?_of_none hp, destination?_of_none hw, Option.map_none]
  | some p =>
    rw [hp] at hw
    have next := Text.place_natCast scene.document.text (p + 1)
    rw [(partner_cases h.styled ha hp).1.place_succ] at next
    rw [destination?_of_some hp, destination?_of_some hw, h.selecting, Option.map_some, widen, restingPlace,
      restingPlace]
    cases d.forward <;> cases scene.selecting <;> simp_all [Text.place_natCast]

end Delimiter

namespace Header

def widen (text : Text) (header : Header) : Header := ⟨text.place header.start, header.delimiter.widen text⟩

variable {scene wide : Scene}

lemma firstNonBlank_lt_lineEnd {offset : Int} {brace : Nat} (h : brace? scene offset = some brace) :
    scene.document.firstNonBlank offset < scene.document.lineEnd offset := by
  rw [brace?] at h
  split at h
  · contradiction
  · next last hl =>
    obtain ⟨hf, he⟩ := Document.firstNonBlank_le_lastNonBlank? hl
    exact Nat.lt_of_le_of_lt hf he

lemma solidAt_firstNonBlank {offset : Int} {brace : Nat} (h : brace? scene offset = some brace) :
    scene.SolidAt (scene.document.firstNonBlank offset) :=
  Document.unit_of_line (Document.contentOfLine_bounds (scene.document.lineAt_lt_lineCount offset)).1
    (firstNonBlank_lt_lineEnd h)

lemma exists_delimiter {o : Nat} {header : Header} (h : at? scene o = some header) :
    ∃ q : Nat, Delimiter.at? scene q = some header.delimiter := by
  rcases at?_cases h with ⟨hd, _⟩ | ⟨_, _, brace, _, hd⟩
  · exact ⟨o, hd⟩
  · exact ⟨brace, hd⟩

lemma encloses_destination? (styled : scene.Styled) (extending : scene.selecting = true) {o : Nat}
    {header : Header} (ha : at? scene o = some header) :
    ∀ destination ∈ Delimiter.destination? scene header.delimiter,
      scene.Encloses header.start destination := by
  intro destination hd
  rcases at?_cases ha with ⟨hdelimiter, hs⟩ | ⟨_, hs, brace, hbrace, hdelimiter⟩
  · rw [hs]
    exact Delimiter.encloses_destination? styled extending hdelimiter destination hd
  · have opens := Delimiter.facing_of_at? hdelimiter (lineAt_brace? hbrace).1
    rw [opens] at hd hdelimiter
    cases hp : Delimiter.partner? scene (Delimiter.facing brace true) with
    | none =>
      rw [Delimiter.destination?_of_none hp] at hd
      contradiction
    | some p =>
      rw [Delimiter.destination?_of_some hp, extending] at hd
      obtain rfl := Option.some.inj hd
      obtain ⟨solid, ⟨_, hle⟩ | ⟨hf, _⟩⟩ := Delimiter.partner_cases styled hdelimiter hp
      · refine ⟨_, p, Nat.le_trans (firstNonBlank_le_brace? hbrace) hle, solidAt_firstNonBlank hbrace, solid,
          .inl ?_⟩
        exact ⟨hs, rfl⟩
      · have turned : true = false := congrArg Delimiter.forward hf
        contradiction

variable (h : scene.Widens wide)
include h

lemma isCodeBrace_place (o : Nat) :
    isCodeBrace wide (scene.document.text.toUnits.place o) = isCodeBrace scene o := by
  rcases h.unit?_cases o with ⟨u, hu, solid, hw⟩ | ⟨hf, hw⟩ | ⟨hu, hw⟩
  · rw [isCodeBrace, isCodeBrace, hu, hw, h.inCode_place hu solid]
  · rw [isCodeBrace, isCodeBrace, hf, hw]
    rfl
  · rw [isCodeBrace, isCodeBrace, hu, hw]
    rfl

lemma brace?_place (offset : Int) : brace? wide (scene.document.text.place offset) =
    (brace? scene offset).map scene.document.text.toUnits.place := by
  have mono := place_strictMono scene.document.text.toUnits
  have natural := Text.place_natCast scene.document.text
  rw [brace?, brace?]
  simp only [h.document.lastNonBlank?_place, h.document.nextLineStart_place, h.document.length_eq, ← natural,
    h.document.firstNonBlank_place]
  cases scene.document.lastNonBlank? offset with
  | none => rfl
  | some last =>
    have alone : ∀ (found : Option Nat) (first : Nat), (found.map scene.document.text.toUnits.place ==
        some (scene.document.text.toUnits.place first)) = (found == some first) := by
      intro found first
      rw [Bool.eq_iff_iff, beq_iff_eq, beq_iff_eq, ← Option.map_some]
      exact (Option.map_injective mono.injective).eq_iff
    simp only [Option.map_some, isCodeBrace_place h, mono.le_iff_le, alone]
    split
    · rfl
    · split
      · rfl
      · split <;> rfl

lemma at?_place {o : Nat} (ho : o ≤ scene.document.length) :
    at? wide (scene.document.text.toUnits.place o : Nat) = (at? scene o).map (widen scene.document.text) := by
  have hb := brace?_place h o
  have hf := h.document.firstNonBlank_place o
  rw [Text.place_natCast] at hb hf
  rw [at?, at?, h.guarded o ho, Delimiter.at?_place h ho, hb]
  cases scene.isGuarded o with
  | true => rfl
  | false =>
    simp only [Bool.false_eq_true, if_false]
    cases Delimiter.at? scene o with
    | some d => rfl
    | none =>
      cases hbrace : brace? scene o with
      | none => rfl
      | some brace =>
        have inside : brace < scene.document.length := Document.lt_length_of_unit (lineAt_brace? hbrace).1
        simp only [Option.map_none, Option.map_some, Option.bind_some, Delimiter.at?_place h (Nat.le_of_lt inside)]
        rw [hf, ← Text.place_natCast, Option.map_map, Option.map_map]
        rfl

lemma destination?_place {o : Nat} {header : Header} (ha : at? scene o = some header) :
    Delimiter.destination? wide (header.delimiter.widen scene.document.text) =
      (Delimiter.destination? scene header.delimiter).map scene.document.text.place := by
  obtain ⟨q, hd⟩ := exists_delimiter ha
  exact Delimiter.destination?_place h hd

end Header

end Counterpart
