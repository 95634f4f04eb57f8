import Counterpart.Proofs.Bracket.Nesting
import Counterpart.Proofs.Delimiter.Involution

namespace Counterpart

namespace Delimiter

open Counterpart.Bracket

def MatchedInCode (scene : Scene) (o p : Nat) : Prop :=
  ∃ (d : Delimiter) (b : Bracket), at? scene d.offset = some d ∧ scene.inCode d.offset = true ∧
    scene.unit? d.offset = some b.unit ∧
    if b.opening then d.offset = o ∧ bound? scene d = some ((p : Int) + 1)
      else d.offset = p ∧ bound? scene d = some o

variable {scene : Scene}

lemma bound?_eq (d : Delimiter) :
    bound? scene d =
      (partner? scene d).map fun partner : Nat => if d.forward then (partner : Int) + 1 else partner := by
  rw [bound?]
  cases partner? scene d <;> rfl

lemma bound?_facing_iff (offset : Int) (forward : Bool) (partner : Nat) :
    bound? scene (facing offset forward) = some (if forward then (partner : Int) + 1 else partner) ↔
      partner? scene (facing offset forward) = some partner := by
  rw [bound?_eq, Option.map_eq_some_iff]
  constructor
  · rintro ⟨q, hq, he⟩
    obtain rfl : q = partner := by cases forward <;> simp [facing] at he <;> omega
    exact hq
  · intro h
    exact ⟨partner, h, rfl⟩

section

variable (apart : scene.Apart)
include apart

lemma bound?_opening_iff {o p : Nat} {s : Shape} (code : scene.inCode o = true)
    (ho : scene.unit? o = some (Bracket.unit ⟨s, true⟩)) :
    bound? scene (facing o true) = some ((p : Int) + 1) ↔ Paired (codeBracket? scene) o p := by
  have hb := @bound?_facing_iff scene o true p
  rw [if_pos rfl] at hb
  rw [hb, partner?_opening apart ho, (scene.zone_eq_code_iff o).mpr code, funext (counted_code scene s)]

lemma bound?_closing_iff {o p : Nat} {s : Shape} (code : scene.inCode p = true)
    (hp : scene.unit? p = some (Bracket.unit ⟨s, false⟩)) :
    bound? scene (facing p false) = some (o : Int) ↔ Paired (codeBracket? scene) o p := by
  have hb := @bound?_facing_iff scene p false o
  rw [if_neg Bool.false_ne_true] at hb
  rw [hb, partner?_closing apart hp, (scene.zone_eq_code_iff p).mpr code, funext (counted_code scene s)]

end

lemma codeBracket?_eq_some_iff {place : Nat} {b : Bracket} :
    codeBracket? scene place = some b ↔ scene.inCode place = true ∧ scene.unit? place = some b.unit := by
  rw [← counted_code scene .round place, counted_eq_some_iff, scene.zone_eq_code_iff]
  simp

lemma paired_of_matchedInCode (apart : scene.Apart) (unguarded : ∀ offset, scene.isGuarded offset = false)
    {o p : Nat} (h : MatchedInCode scene o p) : Paired (codeBracket? scene) o p := by
  obtain ⟨d, ⟨s, opening⟩, hd, code, hu, hends⟩ := h
  have hf : d = facing d.offset opening :=
    Option.some.inj (hd.symm.trans (at?_bracket (unguarded d.offset) hu))
  cases opening with
  | true =>
    obtain ⟨ho, hb⟩ : d.offset = o ∧ bound? scene d = some ((p : Int) + 1) := hends
    rw [ho] at hf code hu
    exact (bound?_opening_iff apart code hu).mp (hf ▸ hb)
  | false =>
    obtain ⟨hp, hb⟩ : d.offset = p ∧ bound? scene d = some (o : Int) := hends
    rw [hp] at hf code hu
    exact (bound?_closing_iff apart code hu).mp (hf ▸ hb)

lemma bound?_of_paired (apart : scene.Apart) {x y : Nat} {b : Bracket} (code : scene.inCode x = true)
    (hx : scene.unit? x = some b.unit)
    (h : Paired (codeBracket? scene) x y ∨ Paired (codeBracket? scene) y x) :
    bound? scene (facing x b.opening) = some (if b.opening then (y : Int) + 1 else y) := by
  have hb : codeBracket? scene x = some b := codeBracket?_eq_some_iff.mpr ⟨code, hx⟩
  obtain ⟨s, opening⟩ := b
  rcases h with hp | hp
  · obtain ⟨_, t, ht, _⟩ := id hp
    obtain ⟨rfl, rfl⟩ := Bracket.mk.inj (Option.some.inj (hb.symm.trans ht))
    exact (bound?_opening_iff apart code hx).mpr hp
  · obtain ⟨_, t, _, ht, _⟩ := id hp
    obtain ⟨rfl, rfl⟩ := Bracket.mk.inj (Option.some.inj (hb.symm.trans ht))
    exact (bound?_closing_iff apart code hx).mpr hp

/-- Each bracket of code between two matched ones is matched with another one between them, so two matched
pairs lie apart or one within the other. -/
theorem matched_brackets_nest (text : Text) (language : String) (settings : Settings) (selecting : Bool)
    (unguarded : settings.lineEndGuardLanguages.contains language = false) :
    let scene := Scene.ofText text language settings selecting
    (∀ (o p : Nat) (s : Shape), scene.inCode o = true → text.unit? o = some (Bracket.unit ⟨s, true⟩) →
      bound? scene (facing o true) = some ((p : Int) + 1) →
      ∀ (x : Nat) (b : Bracket), o < x → x < p → scene.inCode x = true → text.unit? x = some b.unit →
        ∃ (d : Delimiter) (y : Nat), at? scene x = some d ∧
          bound? scene d = some (if b.opening then (y : Int) + 1 else y) ∧ o < y ∧ y < p) ∧
    ∀ o p o' p', MatchedInCode scene o p → MatchedInCode scene o' p' →
      p < o' ∨ p' < o ∨ (o = o' ∧ p = p') ∨ (o < o' ∧ p' < p) ∨ (o' < o ∧ p < p') := by
  intro scene
  have hg : ∀ offset, scene.isGuarded offset = false := Scene.isGuarded_eq_false unguarded
  have apart : scene.Apart := Scene.apart_ofText text language settings selecting
  refine ⟨fun o p s code opens matched x b hox hxp hcode hx => ?_, fun o p o' p' h h' => ?_⟩
  · have paired := (bound?_opening_iff apart code opens).mp matched
    obtain ⟨y, hoy, hyp, hpair⟩ := paired.pairedWithin hox hxp (codeBracket?_eq_some_iff.mpr ⟨hcode, hx⟩)
    exact ⟨_, y, at?_bracket (hg x) hx, bound?_of_paired apart hcode hx hpair, hoy, hyp⟩
  · have hpair := paired_of_matchedInCode apart hg h
    have hpair' := paired_of_matchedInCode apart hg h'
    rcases Nat.lt_trichotomy o o' with later | rfl | earlier
    · have hlt := hpair.behind_or_within hpair' later
      omega
    · have hp := hpair.closing_unique hpair'
      omega
    · have hlt := hpair'.behind_or_within hpair earlier
      omega

theorem matched_brackets_nest_past_string :
    let scene := Scene.ofText (.ofString "f([a, \x7b'(': [1]\x7d] /* ) */)") "typescript" {} false
    bound? scene (facing 1 true) = some 26 ∧ scene.inCode 15 = true ∧
      ∃ (d : Delimiter) (y : Nat), at? scene 15 = some d ∧ bound? scene d = some (y : Int) ∧ 1 < y ∧
        y < 25 := by
  intro scene
  obtain ⟨code, matched, inner⟩ : scene.inCode 1 = true ∧ bound? scene (facing 1 true) = some 26 ∧
      scene.inCode 15 = true := by
    decide +kernel
  have nests := (matched_brackets_nest _ "typescript" {} false (by decide)).1 1 25 .round code (by decide +kernel)
    matched 15 ⟨.curly, false⟩ (by decide) (by decide) inner (by decide +kernel)
  exact ⟨matched, inner, nests⟩

end Delimiter

end Counterpart
