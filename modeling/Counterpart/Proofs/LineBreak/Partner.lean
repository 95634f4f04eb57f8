import Counterpart.Proofs.Delimiter.Quote
import Counterpart.Proofs.LineBreak.Scene

namespace Counterpart

open Counterpart.Bracket Counterpart.Units

namespace Scene

namespace Widens

variable {scene wide : Scene} (h : scene.Widens wide)
include h

lemma selectingToo : Widens { scene with selecting := true } { wide with selecting := true } :=
  ⟨h.document, h.settings, rfl, h.solid, h.feeds, h.returns, h.behindQuote, h.guarded, h.styled, h.outside,
    h.styledWide, h.outsideWide⟩

lemma unit?_place {o : Nat} {u : UInt16} (hu : scene.unit? o = some u) (solid : u ≠ lineFeed) :
    wide.unit? (scene.document.text.toUnits.place o : Nat) = some u :=
  h.document.unit_place hu solid

lemma exists_place {p : Nat} {u : UInt16} (hu : wide.unit? p = some u) (feed : u ≠ lineFeed)
    (ret : u ≠ carriageReturn) : ∃ o : Nat, p = scene.document.text.toUnits.place o ∧
    scene.unit? o = some u := by
  have hp : p ≤ (widen scene.document.text.toUnits).length := by
    rw [← h.document.length_eq_widen]
    exact Nat.le_of_lt (Document.lt_length_of_unit hu)
  obtain ⟨o, ho, rfl | ⟨hf, rfl⟩⟩ := Units.exists_place hp
  · cases hv : scene.document.text.units[o]? with
    | none =>
      have hl : scene.document.length ≤ o := Array.getElem?_eq_none_iff.mp hv
      have hle := (place_strictMono scene.document.text.toUnits).monotone hl
      have hlt : scene.document.text.toUnits.place o < wide.document.length := Document.lt_length_of_unit hu
      rw [h.document.length_eq] at hlt
      exact absurd hlt (Nat.not_lt.mpr hle)
    | some v =>
      by_cases hf : v = lineFeed
      · subst hf
        exact absurd (Option.some.inj (hu.symm.trans (h.document.units_place_lineFeed hv).1)) ret
      · obtain rfl : v = u := Option.some.inj ((h.unit?_place hv hf).symm.trans hu)
        exact ⟨o, rfl, hv⟩
  · rw [Text.getElem?_toUnits] at hf
    exact absurd (Option.some.inj (hu.symm.trans (h.document.units_place_lineFeed hf).2)) feed

lemma unit?_place_iff {o : Nat} {u : UInt16} (feed : u ≠ lineFeed) (ret : u ≠ carriageReturn) :
    wide.unit? (scene.document.text.toUnits.place o : Nat) = some u ↔ scene.unit? o = some u := by
  constructor
  · intro hu
    obtain ⟨q, hq, hv⟩ := h.exists_place hu feed ret
    rwa [(place_strictMono _).injective hq]
  · intro hu
    exact h.unit?_place hu feed

lemma zone_place {o : Nat} {u : UInt16} (hu : scene.unit? o = some u) (solid : u ≠ lineFeed) :
    wide.zone (scene.document.text.toUnits.place o : Nat) = scene.zone o := by
  have ht := h.solid o u hu solid
  rw [zone, zone, inComment, inComment, inString, inString, ht]

lemma inCode_place {o : Nat} {u : UInt16} (hu : scene.unit? o = some u) (solid : u ≠ lineFeed) :
    wide.inCode (scene.document.text.toUnits.place o : Nat) = scene.inCode o := by
  have ht := h.solid o u hu solid
  rw [inCode, inCode, inComment, inComment, inString, inString, ht]

end Widens

end Scene

namespace Delimiter

lemma unit_solid (b : Bracket) : b.unit ≠ lineFeed ∧ b.unit ≠ carriageReturn := by
  rcases b with ⟨_ | _ | _, _ | _⟩ <;> decide

variable {scene wide : Scene}

lemma place_succ_of_solid {o : Nat} {u : UInt16} (hu : scene.unit? o = some u) (solid : u ≠ lineFeed) :
    scene.document.text.toUnits.place (o + 1) = scene.document.text.toUnits.place o + 1 := by
  rw [place_succ ((scene.document.text.getElem?_toUnits o).trans hu), if_neg solid]

variable (h : scene.Widens wide)
include h

section

variable (zone : Zone) (shape : Shape)

lemma counted_eq_some_iff_place {p : Nat} {b : Bracket} :
    counted wide zone shape p = some b ↔
      ∃ o, p = scene.document.text.toUnits.place o ∧ counted scene zone shape o = some b := by
  obtain ⟨solid, ret⟩ := unit_solid b
  constructor
  · intro hc
    obtain ⟨hz, hu, hs⟩ := (counted_eq_some_iff wide zone shape p b).mp hc
    obtain ⟨o, rfl, ho⟩ := h.exists_place hu solid ret
    rw [h.zone_place ho solid] at hz
    exact ⟨o, rfl, (counted_eq_some_iff scene zone shape o b).mpr ⟨hz, ho, hs⟩⟩
  · rintro ⟨o, rfl, hc⟩
    obtain ⟨hz, hu, hs⟩ := (counted_eq_some_iff scene zone shape o b).mp hc
    rw [← h.zone_place hu solid] at hz
    exact (counted_eq_some_iff wide zone shape _ b).mpr ⟨hz, h.unit?_place hu solid, hs⟩

lemma counted_place (o : Nat) :
    counted wide zone shape (scene.document.text.toUnits.place o) = counted scene zone shape o := by
  ext b
  rw [counted_eq_some_iff_place h]
  constructor
  · rintro ⟨q, hq, hc⟩
    rwa [(place_strictMono _).injective hq]
  · intro hc
    exact ⟨o, rfl, hc⟩

lemma counted_lineFeed {o : Nat} (hf : scene.document.text.units[o]? = some lineFeed) :
    counted wide zone shape (scene.document.text.toUnits.place o + 1) = none := by
  rw [Option.eq_none_iff_forall_ne_some]
  intro b hb
  obtain ⟨q, hq, _⟩ := (counted_eq_some_iff_place h zone shape).mp hb
  have next := place_succ (scene.document.text.getElem?_toUnits o ▸ hf)
  rw [if_pos rfl] at next
  have low : o < q := (place_strictMono scene.document.text.toUnits).lt_iff_lt.mp (by omega)
  have high : q < o + 1 := (place_strictMono scene.document.text.toUnits).lt_iff_lt.mp (by omega)
  omega

lemma span_counted_place {a b : Nat} (hab : a ≤ b) (hb : b ≤ scene.document.length) :
    span (counted wide zone shape) (scene.document.text.toUnits.place a) (scene.document.text.toUnits.place b) =
      span (counted scene zone shape) a b := by
  induction b, hab using Nat.le_induction with
  | base => rw [span_self, span_self]
  | succ b hab ih =>
    have mono := (place_strictMono scene.document.text.toUnits).monotone
    have one : ∀ (read : Nat → Option Bracket) (o : Nat),
        span read o (o + 1) = (read o).toList := fun read o => by
      rw [span_step read (Nat.lt_succ_self o), span_self, List.append_nil]
    obtain ⟨u, hu⟩ := Document.exists_unit hb
    have last : span (counted wide zone shape) (scene.document.text.toUnits.place b)
        (scene.document.text.toUnits.place (b + 1)) = (counted scene zone shape b).toList := by
      rw [place_succ (scene.document.text.getElem?_toUnits b ▸ hu), ← counted_place h]
      split
      · next hf =>
        subst hf
        rw [span_step _ (by omega), one, counted_lineFeed h zone shape hu]
        exact List.append_nil _
      · exact one _ _
    rw [span_append _ (mono hab) (mono (Nat.le_succ b)), span_append _ hab (Nat.le_succ b),
      ih (Nat.le_of_lt hb), last, one]

lemma paired_counted_place {o p : Nat} :
    Paired (counted wide zone shape) (scene.document.text.toUnits.place o)
        (scene.document.text.toUnits.place p) ↔ Paired (counted scene zone shape) o p := by
  have bracketed : ∀ {q b}, counted scene zone shape q = some b → q < scene.document.length ∧
      scene.document.text.toUnits.place (q + 1) = scene.document.text.toUnits.place q + 1 := by
    intro q b hc
    obtain ⟨_, hu, _⟩ := (counted_eq_some_iff scene zone shape q b).mp hc
    exact ⟨Document.lt_length_of_unit hu, place_succ_of_solid hu (unit_solid b).1⟩
  rw [Paired, Paired, (place_strictMono _).lt_iff_lt, counted_place h, counted_place h]
  refine and_congr_right fun hop => exists_congr fun s => and_congr_right fun ho => and_congr_right fun hp => ?_
  rw [← (bracketed ho).2, span_counted_place h zone shape hop (Nat.le_of_lt (bracketed hp).1)]

end

omit h in
lemma eq_map_place {us : Units} {found foundWide : Option Nat}
    (reached : ∀ p ∈ foundWide, ∃ q, p = place us q)
    (same : ∀ q, foundWide = some (place us q) ↔ found = some q) : foundWide = found.map (place us) := by
  ext p
  rw [Option.map_eq_some_iff]
  constructor
  · intro hp
    obtain ⟨q, rfl⟩ := reached p hp
    exact ⟨q, (same q).mp hp, rfl⟩
  · rintro ⟨q, hq, rfl⟩
    exact (same q).mpr hq

lemma partner?_bracket_place {o : Nat} {b : Bracket} (hu : scene.unit? o = some b.unit) :
    partner? wide (facing (scene.document.text.toUnits.place o : Nat) b.opening) =
      (partner? scene (facing o b.opening)).map scene.document.text.toUnits.place := by
  have solid := (unit_solid b).1
  have wideUnit := h.unit?_place hu solid
  have zone := h.zone_place hu solid
  obtain ⟨s, opening⟩ := b
  have reached : ∀ {p : Nat} {c : Bracket}, counted wide (scene.zone o) s p = some c →
      ∃ q, p = scene.document.text.toUnits.place q := by
    intro p c hc
    obtain ⟨q, hq, _⟩ := (counted_eq_some_iff_place h _ s).mp hc
    exact ⟨q, hq⟩
  cases opening with
  | true =>
    have found := fun p : Nat => partner?_opening (p := p) h.styledWide.apart wideUnit
    rw [zone] at found
    refine eq_map_place (fun p hp => ?_) fun q => ?_
    · obtain ⟨_, _, _, hc, _⟩ := (found p).mp hp
      exact reached hc
    · rw [found, partner?_opening h.styled.apart hu]
      exact paired_counted_place h _ s
  | false =>
    have found := fun p : Nat => partner?_closing (o := p) h.styledWide.apart wideUnit
    rw [zone] at found
    refine eq_map_place (fun p hp => ?_) fun q => ?_
    · obtain ⟨_, _, hc, _⟩ := (found p).mp hp
      exact reached hc
    · rw [found, partner?_closing h.styled.apart hu]
      exact paired_counted_place h _ s

section

omit h

variable {o p : Nat} {u : UInt16} (alike : StringsAlike scene) (hu : scene.unit? o = some u)
  (glyph : isQuoteGlyph u = true) (hs : scene.inString o = true)
include alike hu glyph hs

lemma partner?_forward_iff : partner? scene (facing o true) = some p ↔
    o ≤ p ∧ (∀ q : Nat, o < q → q ≤ p → scene.inString q = true) ∧
      scene.inString (p + 1 : Nat) = false ∧ scene.unit? p = some u := by
  have hp : partner? scene (facing o true) = (otherQuote? scene o u true).map (o + ·) := by
    show (scene.unit? o).bind _ = _
    rw [hu, Option.bind_some, distance?, if_pos glyph]
    rfl
  rw [hp, Option.map_eq_some_iff]
  constructor
  · rintro ⟨d, hd, rfl⟩
    obtain ⟨_, hin, hout, hq⟩ := (otherQuote?_eq_some_iff alike hs).mp hd
    refine ⟨Nat.le_add_right o d, fun q hoq hqd => ?_, ?_, hq⟩
    · have hplace : placeAway o true (q - o) = q := by
        rw [placeAway, if_pos rfl]
        omega
      rw [← hplace]
      exact hin (q - o) (by omega) (by omega)
    · exact hout
  · rintro ⟨hop, hin, hout, hq⟩
    obtain ⟨d, rfl⟩ := Nat.exists_eq_add_of_le hop
    have hb : o + d < scene.document.length := Document.lt_length_of_unit hq
    refine ⟨d, (otherQuote?_eq_some_iff alike hs).mpr ⟨?_, fun e he hed => ?_, hout, hq⟩, rfl⟩
    · rw [reach, if_pos rfl]
      omega
    · exact hin (o + e) (by omega) (by omega)

lemma partner?_backward_iff : partner? scene (facing o false) = some p ↔
    p ≤ o ∧ (∀ q : Nat, p ≤ q → q < o → scene.inString q = true) ∧
      scene.inString ((p : Int) - 1) = false ∧ scene.unit? p = some u := by
  have hp : partner? scene (facing o false) = (otherQuote? scene o u false).map (o - ·) := by
    show (scene.unit? o).bind _ = _
    rw [hu, Option.bind_some, distance?, if_pos glyph]
    rfl
  have away : ∀ e ≤ o, placeAway o false e = (o - e : Nat) := by
    intro e he
    rw [placeAway, if_neg Bool.false_ne_true]
    omega
  have last : ∀ d ≤ o, placeAway o false (d + 1) = ((o - d : Nat) : Int) - 1 := by
    intro d hd
    rw [placeAway, if_neg Bool.false_ne_true]
    omega
  rw [hp, Option.map_eq_some_iff]
  constructor
  · rintro ⟨d, hd, rfl⟩
    obtain ⟨hreach, hin, hout, hq⟩ := (otherQuote?_eq_some_iff alike hs).mp hd
    rw [reach, if_neg Bool.false_ne_true] at hreach
    rw [last d hreach] at hout
    refine ⟨Nat.sub_le o d, fun q hdq hqo => ?_, hout, hq⟩
    have hplace := hin (o - q) (by omega) (by omega)
    rw [away _ (Nat.sub_le o q), Nat.sub_sub_self (Nat.le_of_lt hqo)] at hplace
    exact hplace
  · rintro ⟨hpo, hin, hout, hq⟩
    have hd : o - (o - p) = p := Nat.sub_sub_self hpo
    refine ⟨o - p, (otherQuote?_eq_some_iff alike hs).mpr ⟨?_, fun e he hed => ?_, ?_, ?_⟩, hd⟩
    · rw [reach, if_neg Bool.false_ne_true]
      exact Nat.sub_le o p
    · rw [away e (by omega)]
      exact hin (o - e) (by omega) (by omega)
    · rw [last _ (Nat.sub_le o p), hd]
      exact hout
    · rw [Delimiter.away, if_neg Bool.false_ne_true, hd]
      exact hq

end

lemma inString_place {o : Nat} {u : UInt16} (hu : scene.unit? o = some u) (solid : u ≠ lineFeed) :
    wide.inString (scene.document.text.toUnits.place o : Nat) = scene.inString o :=
  congrArg Tags.string (h.solid o u hu solid)

lemma inString_behind_place {o : Nat} {u : UInt16} (hu : scene.unit? o = some u) (glyph : isQuoteGlyph u = true) :
    wide.inString (scene.document.text.toUnits.place o + 1 : Nat) = scene.inString (o + 1 : Nat) := by
  have solid : u ≠ lineFeed := by
    rintro rfl
    contradiction
  have ho : o < scene.document.length := Document.lt_length_of_unit hu
  rw [← place_succ_of_solid hu solid]
  cases hv : scene.unit? (o + 1 : Nat) with
  | none =>
    have hl : scene.document.length ≤ o + 1 := Array.getElem?_eq_none_iff.mp hv
    have hlast : o + 1 = scene.document.length := Nat.le_antisymm ho hl
    have hw : wide.unit? (scene.document.text.toUnits.place (o + 1) : Nat) = none := by
      rw [hlast, ← h.document.length_eq]
      exact Array.getElem?_eq_none (Nat.le_refl _)
    rw [h.outsideWide _ hw, h.outside _ hv]
  | some v =>
    by_cases hf : v = lineFeed
    · exact h.behindQuote o u hu glyph (hf ▸ hv)
    · exact inString_place h hv hf

lemma inString_ahead_place {o : Nat} (ho : o ≤ scene.document.length) :
    wide.inString ((scene.document.text.toUnits.place o : Int) - 1) = scene.inString ((o : Int) - 1) := by
  cases o with
  | zero => rw [place_zero, h.outsideWide _ rfl, h.outside _ rfl]
  | succ o =>
    obtain ⟨u, hu⟩ := Document.exists_unit ho
    have next := place_succ ((scene.document.text.getElem?_toUnits o).trans hu)
    have here : ((o + 1 : Nat) : Int) - 1 = o := by omega
    rw [here]
    by_cases hf : u = lineFeed
    · have hplace : ((scene.document.text.toUnits.place (o + 1) : Nat) : Int) - 1 =
          (scene.document.text.toUnits.place o + 1 : Nat) := by
        rw [next, if_pos hf]
        omega
      rw [hplace]
      exact h.feeds o (hf ▸ hu)
    · have hplace : ((scene.document.text.toUnits.place (o + 1) : Nat) : Int) - 1 =
          (scene.document.text.toUnits.place o : Nat) := by
        rw [next, if_neg hf]
        omega
      rw [hplace]
      exact inString_place h hu hf

lemma inString_between_place {a b : Nat} (hb : b ≤ scene.document.length) :
    (∀ p : Nat, scene.document.text.toUnits.place a ≤ p → p < scene.document.text.toUnits.place b →
        wide.inString p = true) ↔ ∀ q : Nat, a ≤ q → q < b → scene.inString q = true := by
  have mono := place_strictMono scene.document.text.toUnits
  have next : ∀ q, scene.document.text.units[q]? = some lineFeed →
      scene.document.text.toUnits.place (q + 1) = scene.document.text.toUnits.place q + 2 := by
    intro q hf
    rw [place_succ ((scene.document.text.getElem?_toUnits q).trans hf), if_pos rfl]
  constructor
  · intro hin q haq hqb
    obtain ⟨u, hu⟩ := Document.exists_unit (Nat.lt_of_lt_of_le hqb hb)
    by_cases hf : u = lineFeed
    · subst hf
      have hlow := mono.monotone haq
      have hhigh : scene.document.text.toUnits.place (q + 1) ≤ scene.document.text.toUnits.place b :=
        mono.monotone hqb
      have hstep := next q hu
      rw [← h.feeds q hu]
      exact hin _ (by omega) (by omega)
    · rw [← inString_place h hu hf]
      exact hin _ (mono.monotone haq) (mono hqb)
  · intro hin p hap hpb
    have hp : p ≤ (widen scene.document.text.toUnits).length := by
      rw [← h.document.length_eq_widen]
      exact Nat.le_of_lt (Nat.lt_of_lt_of_le hpb (h.document.place_le_length hb))
    obtain ⟨q, _, rfl | ⟨hf, rfl⟩⟩ := Units.exists_place hp
    · have haq := mono.le_iff_le.mp hap
      have hqb := mono.lt_iff_lt.mp hpb
      obtain ⟨u, hu⟩ := Document.exists_unit (Nat.lt_of_lt_of_le hqb hb)
      by_cases hf : u = lineFeed
      · exact h.returns q (hf ▸ hu) (hin q haq hqb)
      · rw [inString_place h hu hf]
        exact hin q haq hqb
    · rw [Text.getElem?_toUnits] at hf
      have hstep := next q hf
      have haq : a < q + 1 := mono.lt_iff_lt.mp (by omega)
      have hqb : q < b := mono.lt_iff_lt.mp (by omega)
      rw [h.feeds q hf]
      exact hin q (Nat.le_of_lt_succ haq) hqb

lemma partner?_quote_place {o : Nat} {u : UInt16} (hu : scene.unit? o = some u) (glyph : isQuoteGlyph u = true)
    (hs : scene.inString o = true) (forward : Bool) :
    partner? wide (facing (scene.document.text.toUnits.place o : Nat) forward) =
      (partner? scene (facing o forward)).map scene.document.text.toUnits.place := by
  have solid : u ≠ lineFeed ∧ u ≠ carriageReturn := by
    constructor <;> rintro rfl <;> contradiction
  have mono := place_strictMono scene.document.text.toUnits
  have alike := stringsAlike_of_styled h.styled
  have alikeWide := stringsAlike_of_styled h.styledWide
  have wideUnit := h.unit?_place hu solid.1
  have wideString := (inString_place h hu solid.1).trans hs
  have ho : o < scene.document.length := Document.lt_length_of_unit hu
  have quoted : ∀ p : Nat, wide.unit? p = some u → ∃ q, p = scene.document.text.toUnits.place q := by
    intro p hp
    obtain ⟨q, hq, _⟩ := h.exists_place hp solid.1 solid.2
    exact ⟨q, hq⟩
  cases forward with
  | true =>
    have found := fun p : Nat => partner?_forward_iff (p := p) alike hu glyph hs
    have foundWide := fun p : Nat => partner?_forward_iff (p := p) alikeWide wideUnit glyph wideString
    refine eq_map_place (fun p hp => ?_) fun q => ?_
    · obtain ⟨_, _, _, hq⟩ := (foundWide p).mp hp
      exact quoted p hq
    · rw [found, foundWide, mono.le_iff_le, h.unit?_place_iff solid.1 solid.2, ← and_assoc, ← and_assoc,
        ← and_assoc, ← and_assoc]
      refine and_congr_left fun hq => ?_
      have between := inString_between_place h (a := o + 1) (b := q + 1) (Document.lt_length_of_unit hq)
      rw [place_succ_of_solid hu solid.1, place_succ_of_solid hq solid.1] at between
      simp only [Nat.lt_succ_iff, Nat.succ_le_iff] at between
      rw [inString_behind_place h hq glyph, between]
  | false =>
    have found := fun p : Nat => partner?_backward_iff (p := p) alike hu glyph hs
    have foundWide := fun p : Nat => partner?_backward_iff (p := p) alikeWide wideUnit glyph wideString
    refine eq_map_place (fun p hp => ?_) fun q => ?_
    · obtain ⟨_, _, _, hq⟩ := (foundWide p).mp hp
      exact quoted p hq
    · rw [found, foundWide, mono.le_iff_le, h.unit?_place_iff solid.1 solid.2, ← and_assoc, ← and_assoc,
        ← and_assoc, ← and_assoc]
      refine and_congr_left fun hq => ?_
      rw [inString_ahead_place h (Nat.le_of_lt (Document.lt_length_of_unit hq)),
        inString_between_place h (Nat.le_of_lt ho)]

end Delimiter

end Counterpart
