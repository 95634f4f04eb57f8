import Counterpart.Proofs.LineBreak.Document
import Counterpart.Proofs.LineBreak.Styling
import Counterpart.Proofs.Number.Rounding
import Counterpart.Proofs.Settings

/-! A scene and the one of its text with widened line breaks: what each place is part of, and which are guarded. -/

namespace Counterpart

open Counterpart.Units

namespace Spread

lemma place_cons_of_ne {u : UInt16} (hu : u ≠ lineFeed) (us : Units) (o : Nat) :
    place (u :: us) (o + 1) = place us o + 1 := by
  rw [place_cons, if_neg hu, Nat.add_comm]

lemma place_cons_lineFeed (us : Units) (o : Nat) : place (lineFeed :: us) (o + 1) = place us o + 1 + 1 := by
  rw [place_cons, if_pos rfl, Nat.add_comm]

variable {us : Units} {narrow wide : List Style} (h : Spread us narrow wide) {o : Nat}
include h

lemma style_place {u : UInt16} (hu : us[o]? = some u) (solid : u ≠ lineFeed) :
    wide[place us o]? = narrow[o]? := by
  induction h generalizing o with
  | nil => contradiction
  | unit style hs _ ih =>
    cases o with
    | zero => rfl
    | succ o => rw [place_cons_of_ne hs, List.getElem?_cons_succ, List.getElem?_cons_succ, ih hu]
  | «break» style _ ih =>
    cases o with
    | zero => rfl
    | succ o =>
      rw [place_cons_lineFeed, List.getElem?_cons_succ, List.getElem?_cons_succ, List.getElem?_cons_succ, ih hu]
  | behindComment _ ih =>
    cases o with
    | zero => exact absurd (Option.some.inj hu).symm solid
    | succ o =>
      rw [place_cons_lineFeed, List.getElem?_cons_succ, List.getElem?_cons_succ, List.getElem?_cons_succ, ih hu]
  | behindString hs _ _ ih =>
    rcases o with _ | _ | o
    · rfl
    · exact absurd (Option.some.inj hu).symm solid
    · rw [place_cons_of_ne hs, place_cons_lineFeed]
      simp only [List.getElem?_cons_succ]
      exact ih hu

lemma style_lineFeed (hf : us[o]? = some lineFeed) : wide[place us o + 1]? = narrow[o]? ∧
    (narrow[o]? = some .string → wide[place us o]? = some .string) ∧
      (wide[place us o]? = some .string → narrow[o]? = some .string ∨
        ∃ q v, o = q + 1 ∧ us[q]? = some v ∧ isQuoteGlyph v = false) := by
  have further : ∀ {u : UInt16} {vs : Units} {o : Nat},
      (∃ q v, o = q + 1 ∧ vs[q]? = some v ∧ isQuoteGlyph v = false) →
      ∃ q v, o + 1 = q + 1 ∧ (u :: vs)[q]? = some v ∧ isQuoteGlyph v = false := by
    rintro u vs _ ⟨q, v, rfl, hv, glyph⟩
    exact ⟨q + 1, v, rfl, hv, glyph⟩
  induction h generalizing o with
  | nil => contradiction
  | unit style hs _ ih =>
    cases o with
    | zero => exact absurd (Option.some.inj hf) hs
    | succ o =>
      rw [place_cons_of_ne hs]
      simp only [List.getElem?_cons_succ]
      obtain ⟨feed, kept, taken⟩ := ih hf
      exact ⟨feed, kept, fun hw => (taken hw).imp_right further⟩
  | «break» style _ ih =>
    cases o with
    | zero => exact ⟨rfl, id, .inl⟩
    | succ o =>
      rw [place_cons_lineFeed]
      simp only [List.getElem?_cons_succ]
      obtain ⟨feed, kept, taken⟩ := ih hf
      exact ⟨feed, kept, fun hw => (taken hw).imp_right further⟩
  | behindComment _ ih =>
    cases o with
    | zero => exact ⟨rfl, by simp, by simp⟩
    | succ o =>
      rw [place_cons_lineFeed]
      simp only [List.getElem?_cons_succ]
      obtain ⟨feed, kept, taken⟩ := ih hf
      exact ⟨feed, kept, fun hw => (taken hw).imp_right further⟩
  | @behindString u _ _ _ hs glyph _ ih =>
    rcases o with _ | _ | o
    · exact absurd (Option.some.inj hf) hs
    · rw [place_cons_of_ne hs]
      exact ⟨rfl, by simp, fun _ => .inr ⟨0, u, rfl, rfl, glyph⟩⟩
    · rw [place_cons_of_ne hs, place_cons_lineFeed]
      simp only [List.getElem?_cons_succ]
      obtain ⟨feed, kept, taken⟩ := ih hf
      exact ⟨feed, kept, fun hw => (taken hw).imp_right fun found => further (further found)⟩

end Spread

namespace Settings

def GuardsExactly (settings : Settings) (language : String) (length : Nat) : Prop :=
  language ∈ settings.lineEndGuardLanguages →
    length < 2 ^ 53 ∧ ∀ value, settings.lineEndGuardOffset = .finite value → ∃ n : Int, value = n

lemma guardsExactly_read (source : Source) (language : String) {length : Nat} (h : length < 2 ^ 53) :
    (read source).1.GuardsExactly language length := by
  obtain ⟨k, hk⟩ := (valid_read source).guard
  intro _
  refine ⟨h, fun value hv => ⟨k, ?_⟩⟩
  exact Number.finite.inj (hv.symm.trans hk)

end Settings

namespace Scene

structure Widens (scene wide : Scene) : Prop where
  document : scene.document.Widens wide.document
  settings : wide.settings = scene.settings
  selecting : wide.selecting = scene.selecting
  solid : ∀ (o : Nat) (u : UInt16), scene.document.text.units[o]? = some u → u ≠ lineFeed →
    wide.tags (scene.document.text.toUnits.place o : Nat) = scene.tags o
  feeds : ∀ o : Nat, scene.document.text.units[o]? = some lineFeed →
    wide.inString (scene.document.text.toUnits.place o + 1 : Nat) = scene.inString o
  returns : ∀ o : Nat, scene.document.text.units[o]? = some lineFeed → scene.inString o = true →
    wide.inString (scene.document.text.toUnits.place o : Nat) = true
  behindQuote : ∀ (o : Nat) (u : UInt16), scene.document.text.units[o]? = some u → isQuoteGlyph u = true →
    scene.document.text.units[o + 1]? = some lineFeed →
      wide.inString (scene.document.text.toUnits.place (o + 1) : Nat) = scene.inString (o + 1 : Nat)
  guarded : ∀ o : Nat, o ≤ scene.document.length →
    wide.isGuarded (scene.document.text.toUnits.place o : Nat) = scene.isGuarded o
  styled : scene.Styled
  outside : ∀ offset, scene.unit? offset = none → scene.inString offset = false
  styledWide : wide.Styled
  outsideWide : ∀ offset, wide.unit? offset = none → wide.inString offset = false

lemma isGuarded_place {scene wide : Scene} (document : scene.document.Widens wide.document)
    (settings : wide.settings = scene.settings)
    (guards : scene.settings.GuardsExactly scene.document.language wide.document.length) {o : Nat}
    (ho : o ≤ scene.document.length) :
    wide.isGuarded (scene.document.text.toUnits.place o : Nat) = scene.isGuarded o := by
  rw [isGuarded, isGuarded, settings, document.language]
  cases hl : scene.settings.lineEndGuardLanguages.contains scene.document.language with
  | false => rfl
  | true =>
    obtain ⟨small, whole⟩ := guards (List.contains_iff_mem.mp hl)
    rw [Bool.true_and, Bool.true_and]
    cases hv : scene.settings.lineEndGuardOffset with
    | nan => rfl
    | infinite negative => rfl
    | finite value =>
      obtain ⟨n, rfl⟩ := whole value hv
      have hw := document.place_le_length ho
      have hplace := Document.place_eq_add ho
      have here := document.le_endOfLine ho
      have order := (Units.place_strictMono scene.document.text.toUnits).monotone here
      have gap := Document.place_sub_place (scene.document.lineAt_lt_lineCount o)
        (Document.startOfLine_lineAt_le ho) here (Nat.le_refl _)
      have wideEnd := document.lineEnd_place o
      rw [Text.place_natCast] at wideEnd
      rw [wideEnd, Number.spans_intCast (by omega), Number.spans_intCast (by omega), decide_eq_decide,
        Document.lineEnd]
      omega

lemma widens_ofText {text : Text} {language : String} (plain : carriageReturn ∉ text.toUnits)
    (alike : Token.ReadsAlike (Lexicon.ofLanguage language) text.toUnits) {settings : Settings}
    (guards : settings.GuardsExactly language text.widen.length) (selecting : Bool) :
    (ofText text language settings selecting).Widens (ofText text.widen language settings selecting) := by
  have spread := Token.spread_stylesOf (Lexicon.unbroken_ofLanguage language) alike
  have hwide : text.widen.toUnits = text.toUnits.widen := Text.toUnits_ofUnits _
  have inString : ∀ (t : Text) (o : Nat), (ofText t language settings selecting).inString o = true ↔
      (Token.stylesOf (Lexicon.ofLanguage language) t.toUnits)[o]? = some .string :=
    fun t o => inString_ofText_iff t language settings selecting o
  have document : (ofText text language settings selecting).document.Widens
      (ofText text.widen language settings selecting).document := ⟨rfl, rfl, plain⟩
  constructor
  case document => exact document
  case settings => rfl
  case selecting => rfl
  case guarded =>
    intro o ho
    have settled : (ofText text.widen language settings selecting).settings =
      (ofText text language settings selecting).settings := rfl
    exact isGuarded_place document settled guards ho
  case styled => exact styled_ofText text language settings selecting
  case outside => exact inString_outside text language settings selecting
  case styledWide => exact styled_ofText text.widen language settings selecting
  case outsideWide => exact inString_outside text.widen language settings selecting
  case solid =>
    intro o u hu solid
    rw [← Text.getElem?_toUnits] at hu
    rw [tags_ofText, tags_ofText, hwide]
    exact congrArg _ (congrArg (Option.getD · _) (spread.style_place hu solid))
  case feeds =>
    intro o hf
    rw [← Text.getElem?_toUnits] at hf
    rw [Bool.eq_iff_iff, inString, inString, hwide]
    exact Eq.congr_left (spread.style_lineFeed hf).1
  case returns =>
    intro o hf hs
    rw [← Text.getElem?_toUnits] at hf
    rw [inString] at hs ⊢
    rw [hwide]
    exact (spread.style_lineFeed hf).2.1 hs
  case behindQuote =>
    intro o u hu glyph hf
    rw [← Text.getElem?_toUnits] at hu hf
    rw [Bool.eq_iff_iff, inString, inString, hwide]
    obtain ⟨_, kept, taken⟩ := spread.style_lineFeed hf
    refine ⟨fun hw => (taken hw).resolve_right ?_, kept⟩
    rintro ⟨q, v, ho, hv, unquoted⟩
    obtain rfl := Nat.succ.inj ho
    obtain rfl := Option.some.inj (hu.symm.trans hv)
    rw [glyph] at unquoted
    contradiction

end Scene

end Counterpart
