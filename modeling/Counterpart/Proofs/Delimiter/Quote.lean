import Counterpart.Proofs.Delimiter.Involution
import Counterpart.Proofs.Delimiter.Reach
import Counterpart.Proofs.Token.Literal

namespace Counterpart

namespace Delimiter

open Counterpart.Bracket

def StringsAlike (scene : Scene) : Prop :=
  ∀ a b, scene.inString a = true → (scene.tags a == scene.tags b) = scene.inString b

lemma stringsAlike_of_styled {scene : Scene} (styled : scene.Styled) : StringsAlike scene := by
  intro a b ha
  obtain ⟨first, hf⟩ := styled a
  obtain ⟨second, hs⟩ := styled b
  simp only [Scene.inString, hf, hs] at ha ⊢
  cases first with
  | string => cases second <;> rfl
  | code | comment | commentDelimiter => contradiction

lemma stringsAlike_ofText (text : Text) (language : String) (settings : Settings) (selecting : Bool) :
    StringsAlike (Scene.ofText text language settings selecting) :=
  stringsAlike_of_styled (Scene.styled_ofText text language settings selecting)

variable {scene : Scene}

def placeAway (offset : Nat) (forward : Bool) (distance : Nat) : Int :=
  if forward then (offset : Int) + distance else offset - distance

lemma placeAway_zero (offset : Nat) (forward : Bool) : placeAway offset forward 0 = offset := by
  cases forward <;> simp [placeAway]

lemma eq_of_away_eq {offset d e : Nat} {forward : Bool} (hd : d ≤ reach scene offset forward)
    (he : e ≤ reach scene offset forward) (h : away offset forward d = away offset forward e) : d = e := by
  cases forward <;> simp only [reach, away, if_true, Bool.false_eq_true, if_false] at hd he h <;> omega

lemma otherQuote?_eq_some_iff (alike : StringsAlike scene) {offset d : Nat} {quote : UInt16} {forward : Bool}
    (hs : scene.inString offset = true) :
    otherQuote? scene offset quote forward = some d ↔ d ≤ reach scene offset forward ∧
      (∀ e, 0 < e → e ≤ d → scene.inString (placeAway offset forward e) = true) ∧
        scene.inString (placeAway offset forward (d + 1)) = false ∧
          scene.unit? (away offset forward d) = some quote := by
  have htags : ∀ e, (scene.tags offset == tagsAway scene offset forward e) =
      scene.inString (placeAway offset forward e) := fun e => alike _ _ hs
  rw [otherQuote?, Option.filter_eq_some_iff, lastAlike_eq_some_iff, beq_iff_eq]
  simp only [htags]
  constructor
  · rintro ⟨⟨_, hd, hin, hout⟩, hu⟩
    exact ⟨by omega, hin, hout, hu⟩
  · rintro ⟨hd, hin, hout, hu⟩
    exact ⟨⟨Nat.zero_le _, by omega, hin, hout⟩, hu⟩

lemma ofUnit?_glyph {u : UInt16} (glyph : isQuoteGlyph u = true) : ofUnit? u = none := by
  cases hb : ofUnit? u with
  | none => rfl
  | some b =>
    rw [ofUnit?_eq_some_iff.mp hb, isQuoteGlyph_unit] at glyph
    contradiction

section

variable (placing : scene.selecting = false) (unguarded : ∀ offset, scene.isGuarded offset = false)
  (alike : StringsAlike scene)
include placing unguarded alike

lemma landing?_quote {o : Nat} {u : UInt16} {forward : Bool} (hu : scene.unit? o = some u)
    (glyph : isQuoteGlyph u = true) (hs : scene.inString o = true)
    (hf : scene.inString ((o : Int) + 1) = forward) :
    landing? scene o = (otherQuote? scene o u forward).map fun d => (away o forward d : Int) := by
  have hd : direction? scene o = some forward := by
    simp only [direction?, hu, ofUnit?_glyph glyph, glyph, hs, Bool.and_self, if_true]
    rw [alike _ _ hs, hf]
  have hp : partner? scene (facing o forward) = (otherQuote? scene o u forward).map (away o forward) := by
    show (scene.unit? o).bind _ = _
    rw [hu, Option.bind_some, distance?, if_pos glyph]
    rfl
  rw [landing?, at?, unguarded, if_neg Bool.false_ne_true, hd, Option.map_some, Option.bind_some,
    destination?_placing placing, hp, Option.map_map]
  rfl

lemma jumpsTo_quote {o : Nat} {p : Int} {u : UInt16} {forward : Bool} (hu : scene.unit? o = some u)
    (glyph : isQuoteGlyph u = true) (hs : scene.inString o = true)
    (hf : scene.inString ((o : Int) + 1) = forward) :
    JumpsTo scene o p ↔ ∃ d, otherQuote? scene o u forward = some d ∧ p = away o forward d := by
  rw [jumpsTo_iff, landing?_quote placing unguarded alike hu glyph hs hf, Option.map_eq_some_iff]
  exact exists_congr fun d => and_congr_right' eq_comm

lemma jumpsTo_across {o m : Nat} {u : UInt16} {forward : Bool} (glyph : isQuoteGlyph u = true) (pos : 0 < m)
    (string : ∀ e ≤ m, scene.inString (placeAway o forward e) = true) (hm : m ≤ reach scene o forward)
    (hu : scene.unit? o = some u) (other : scene.unit? (away o forward m) = some u) :
    JumpsTo scene o (away o forward m) ↔
      scene.inString ((o : Int) + 1) = forward ∧ scene.inString (placeAway o forward (m + 1)) = false := by
  have hs : scene.inString o = true := by rw [← placeAway_zero o forward, string 0 (Nat.zero_le m)]
  rw [jumpsTo_quote placing unguarded alike hu glyph hs rfl]
  by_cases hf : scene.inString ((o : Int) + 1) = forward
  · rw [hf, and_iff_right rfl]
    constructor
    · rintro ⟨d, hd, hp⟩
      obtain ⟨hreach, _, hout, _⟩ := (otherQuote?_eq_some_iff alike hs).mp hd
      obtain rfl : m = d := eq_of_away_eq hm hreach (Int.ofNat.inj hp)
      exact hout
    · intro hout
      exact ⟨m, (otherQuote?_eq_some_iff alike hs).mpr ⟨hm, fun e _ he => string e he, hout, other⟩, rfl⟩
  · refine iff_of_false ?_ fun h => hf h.1
    rw [Bool.eq_not_of_ne hf]
    rintro ⟨d, _, hp⟩
    -- The walk leads the other way.
    cases forward with
    | true =>
      rw [away, away, if_pos rfl, Bool.not_true, if_neg Bool.false_ne_true] at hp
      omega
    | false =>
      rw [reach, if_neg Bool.false_ne_true] at hm
      rw [away, away, if_neg Bool.false_ne_true, Bool.not_false, if_pos rfl] at hp
      omega

variable {s n : Nat} {u : UInt16} (string : ∀ k < n, scene.inString ((s + k : Nat) : Int) = true) (two : 2 ≤ n)
  (glyph : isQuoteGlyph u = true) (opens : scene.unit? s = some u)
  (closes : scene.unit? (s + (n - 1) : Nat) = some u)
include string two glyph opens closes

lemma jumpsTo_end_iff : JumpsTo scene s (s + (n - 1) : Nat) ↔ scene.inString ((s + n : Nat) : Int) = false := by
  have hlast : s + (n - 1) < scene.document.length := Document.lt_length_of_unit closes
  have hm : n - 1 ≤ reach scene s true := by
    rw [reach, if_pos rfl]
    omega
  have hbehind : placeAway s true (n - 1 + 1) = (s + n : Nat) := by
    rw [placeAway, if_pos rfl]
    omega
  have within : ∀ e ≤ n - 1, scene.inString (placeAway s true e) = true := fun e he => string e (by omega)
  have across := jumpsTo_across placing unguarded alike glyph (by omega) within hm opens closes
  rw [hbehind] at across
  exact across.trans (and_iff_right (string 1 two))

lemma jumpsTo_start_iff : JumpsTo scene (s + (n - 1) : Nat) s ↔
    scene.inString ((s : Int) - 1) = false ∧ scene.inString ((s + n : Nat) : Int) = false := by
  have hstart : away (s + (n - 1)) false (n - 1) = s := Nat.add_sub_cancel s (n - 1)
  have hnext : ((s + (n - 1) : Nat) : Int) + 1 = (s + n : Nat) := by omega
  have hahead : placeAway (s + (n - 1)) false (n - 1 + 1) = (s : Int) - 1 := by
    rw [placeAway, if_neg Bool.false_ne_true]
    omega
  have within : ∀ e ≤ n - 1, scene.inString (placeAway (s + (n - 1)) false e) = true := by
    intro e he
    have hplace : placeAway (s + (n - 1)) false e = (s + (n - 1 - e) : Nat) := by
      rw [placeAway, if_neg Bool.false_ne_true]
      omega
    rw [hplace]
    exact string _ (by omega)
  have across := jumpsTo_across placing unguarded alike glyph (by omega) within (Nat.le_add_left _ _) closes
    (hstart.symm ▸ opens)
  rw [hstart, hnext, hahead] at across
  exact across.trans and_comm

end

/-- From the quote that opens a literal a jump leads to the one that closes it just when no other literal stands
directly behind, and back just when none stands directly before or behind. -/
theorem quote_jumps_to_other_end (text : Text) (language : String) (settings : Settings)
    (unguarded : settings.lineEndGuardLanguages.contains language = false) (before after : List Token)
    (token : Token)
    (tokens : Token.ofUnits (Lexicon.ofLanguage language) text.toUnits = before ++ token :: after)
    (literal : token.isLiteral = true) (two : 2 ≤ token.length)
    (closed : text.units[Token.extent before + (token.length - 1)]? = text.units[Token.extent before]?) :
    let scene := Scene.ofText text language settings false
    let opener := Token.extent before
    let closer := Token.extent before + (token.length - 1)
    (JumpsTo scene opener closer ↔ after.head?.any Token.isLiteral = false) ∧
      (JumpsTo scene closer opener ↔
        before.getLast?.any Token.isLiteral = false ∧ after.head?.any Token.isLiteral = false) := by
  intro scene opener closer
  have hg : ∀ offset, scene.isGuarded offset = false := Scene.isGuarded_eq_false unguarded
  have alike : StringsAlike scene := stringsAlike_ofText text language settings false
  obtain ⟨u, hu, glyph⟩ := Token.quote_of_ofUnits (Lexicon.quotesGlyphs_ofLanguage language) tokens literal
  have opens : text.units[opener]? = some u := by rwa [Text.toUnits, Array.getElem?_toList] at hu
  have closes : text.units[closer]? = some u := closed.trans opens
  have string : ∀ k < token.length, scene.inString ((opener + k : Nat) : Int) = true := by
    intro k hk
    rw [Scene.inString_in_token tokens settings false hk, literal]
  have ends := jumpsTo_end_iff rfl hg alike string two glyph opens closes
  have starts := jumpsTo_start_iff rfl hg alike string two glyph opens closes
  rw [Scene.inString_behind tokens] at ends starts
  rw [Scene.inString_ahead tokens] at starts
  exact ⟨ends, starts⟩

theorem quote_jumps_to_other_end_past_escape :
    let text := Text.ofString "f(\"a\\\"b\")// \"c"
    let scene := Scene.ofText text "typescript" {} false
    let before := [Token.plain, .plain]
    let after := [Token.plain, .lineComment 2 5]
    Token.ofUnits (Lexicon.ofLanguage "typescript") text.toUnits = before ++ .string 6 :: after ∧
      text.units[7]? = text.units[2]? ∧ JumpsTo scene 2 7 ∧ JumpsTo scene 7 2 := by
  intro text scene before after
  have tokens : Token.ofUnits (Lexicon.ofLanguage "typescript") text.toUnits = before ++ .string 6 :: after := by
    decide +kernel
  have closed : text.units[7]? = text.units[2]? := by decide +kernel
  obtain ⟨ends, starts⟩ :=
    quote_jumps_to_other_end text "typescript" {} (by decide) before after (.string 6) tokens rfl
      (by decide) closed
  exact ⟨tokens, closed, ends.mpr rfl, starts.mpr ⟨rfl, rfl⟩⟩

theorem adjacent_literals_jump_as_one :
    let text := Text.ofString "echo \"a\"\"b\""
    let scene := Scene.ofText text "shellscript" {} false
    Token.ofUnits (Lexicon.ofLanguage "shellscript") text.toUnits =
        [.plain, .plain, .plain, .plain, .plain, .string 3, .string 3] ∧
      text.units[7]? = text.units[5]? ∧ JumpsTo scene 5 10 ∧ ¬ JumpsTo scene 5 7 ∧
        ¬ JumpsTo scene 7 5 := by
  intro text scene
  rw [jumpsTo_iff, jumpsTo_iff, jumpsTo_iff]
  decide +kernel

end Delimiter

end Counterpart
