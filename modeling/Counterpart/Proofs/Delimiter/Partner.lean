import Counterpart.Delimiter.Partner
import Counterpart.Proofs.Bracket.Pairing
import Counterpart.Proofs.Scene

namespace Counterpart

namespace Delimiter

open Counterpart.Bracket

variable (scene : Scene)

def counted (zone : Zone) (shape : Shape) (place : Nat) : Option Bracket :=
  if scene.zone place = zone then
    ((scene.unit? place).bind ofUnit?).filter fun b => zone = .code || b.shape = shape
  else none

lemma counted_eq_some_iff (zone : Zone) (shape : Shape) (place : Nat) (b : Bracket) :
    counted scene zone shape place = some b ↔
      scene.zone place = zone ∧ scene.unit? place = some b.unit ∧ (zone = .code ∨ b.shape = shape) := by
  rw [counted]
  split
  · next hz =>
    rw [Option.filter_eq_some_iff, Option.bind_eq_some_iff]
    constructor
    · rintro ⟨⟨u, hu, hb⟩, hs⟩
      rw [ofUnit?_eq_some_iff] at hb
      exact ⟨hz, hb ▸ hu, by simpa using hs⟩
    · rintro ⟨_, hu, hs⟩
      exact ⟨⟨b.unit, hu, ofUnit?_unit b⟩, by simpa using hs⟩
  · next hz => simp [hz]

lemma counted_code (shape : Shape) (place : Nat) :
    counted scene .code shape place = codeBracket? scene place := by
  have hf : ∀ x : Option Bracket, x.filter (fun b => decide (Zone.code = .code) || b.shape = shape) = x := by
    intro x
    cases x <;> simp
  rw [counted, hf, codeBracket?]
  simp only [scene.zone_eq_code_iff]

lemma nested_eq_balanced (b : Bracket) (read : Nat → Option UInt16) (level room distance : Nat) :
    nested b.unit read (level + 1) room distance =
      balanced b.opening (fun e => ((read e).bind ofUnit?).filter (·.shape = b.shape))
        (List.replicate (level + 1) b.shape) room distance := by
  induction room generalizing level distance with
  | zero => rfl
  | succ room ih =>
    rw [nested, balanced]
    cases read distance with
    | none => simpa using ih level (distance + 1)
    | some u =>
      rw [counterpartOf?_unit]
      cases hc : ofUnit? u with
      | none =>
        have hu : ∀ c : Bracket, u ≠ c.unit := by
          rintro c rfl
          simp at hc
        simpa [hu, (hu _).symm, hc] using ih level (distance + 1)
      | some c =>
        obtain rfl := ofUnit?_eq_some_iff.mp hc
        by_cases hs : c.shape = b.shape
        · have hr : (some c).filter (fun x => decide (x.shape = b.shape)) = some c := by simp [hs]
          simp only [Option.bind_some, hc, hr]
          by_cases ho : c.opening = b.opening
          · obtain rfl : c = b := by cases c; cases b; simp_all
            simpa [List.replicate_succ] using ih (level + 1) (distance + 1)
          · obtain rfl : c = b.flip := by cases c; cases b; cases ‹Bool› <;> simp_all [Bracket.flip]
            have hu : b.flip.unit ≠ b.unit := fun h => ho (by rw [unit_injective h])
            rw [if_neg hu, if_pos rfl, if_neg ho]
            cases level with
            | zero => simp [Bracket.flip]
            | succ level => simpa [Bracket.flip, List.replicate_succ] using ih level (distance + 1)
        · have hr : (some c).filter (fun x => decide (x.shape = b.shape)) = none := by simp [hs]
          have hu : c.unit ≠ b.unit := fun h => hs (by rw [unit_injective h])
          have hf : b.flip.unit ≠ c.unit := fun h => hs (by rw [← unit_injective h]; rfl)
          simpa [hc, hr, hu, hf] using ih level (distance + 1)

lemma isQuoteGlyph_unit (b : Bracket) : isQuoteGlyph b.unit = false := by
  rcases b with ⟨_ | _ | _, _ | _⟩ <;> decide

@[simp] lemma away_zero (offset : Nat) (forward : Bool) : away offset forward 0 = offset := by
  simp [away]

variable {scene}

lemma counted_self {offset : Nat} {b : Bracket} (hb : scene.unit? offset = some b.unit) :
    counted scene (scene.zone offset) b.shape offset = some b :=
  (counted_eq_some_iff scene _ _ _ _).mpr ⟨rfl, hb, .inr rfl⟩

lemma nestedWithin?_eq {offset : Nat} {b : Bracket} {zone : Zone} {within : Int → Bool} (hz : zone ≠ .code)
    (hw : ∀ place, scene.zone place = zone ↔ within place = true) (ho : scene.zone offset = zone)
    (hb : scene.unit? offset = some b.unit) (forward : Bool) :
    nestedWithin? scene within offset b.unit forward =
      balanced b.opening (fun e => counted scene zone b.shape (away offset forward e)) []
        (reach scene offset forward + 1) 0 := by
  have hr : ∀ place : Nat, ((if within place then scene.unit? place else none).bind ofUnit?).filter
      (·.shape = b.shape) = counted scene zone b.shape place := by
    intro place
    simp only [counted, hw place, hz, Bool.false_or, decide_false]
    split <;> rfl
  rw [balanced_start b _ _ (by rw [away_zero, ← ho]; exact counted_self hb), nestedWithin?,
    nested_eq_balanced]
  simp only [hr]
  rfl

lemma distance?_of_code {offset : Nat} {b : Bracket} (code : scene.inCode offset = true) (forward : Bool) :
    distance? scene offset forward b.unit = balancedInCode? scene offset forward := by
  simp only [Scene.inCode, Bool.and_eq_true, Bool.not_eq_true'] at code
  rw [distance?, isQuoteGlyph_unit, code.1, code.2]
  rfl

lemma distance?_eq (apart : scene.Apart) {offset : Nat} {b : Bracket} (hb : scene.unit? offset = some b.unit) :
    distance? scene offset b.opening b.unit =
      balanced b.opening (fun e => counted scene (scene.zone offset) b.shape (away offset b.opening e)) []
        (reach scene offset b.opening + 1) 0 := by
  cases hz : scene.zone offset with
  | comment =>
    rw [distance?, isQuoteGlyph_unit, if_neg Bool.false_ne_true, if_pos ((scene.zone_eq_comment_iff offset).mp hz)]
    exact nestedWithin?_eq (by decide) scene.zone_eq_comment_iff hz hb _
  | string =>
    have hs := (apart.zone_eq_string_iff offset).mp hz
    have hc : ¬ scene.inComment offset = true := fun h => by simp [apart offset h] at hs
    rw [distance?, isQuoteGlyph_unit, if_neg Bool.false_ne_true, if_neg hc, if_pos hs]
    exact nestedWithin?_eq (by decide) apart.zone_eq_string_iff hz hb _
  | code =>
    rw [distance?_of_code ((scene.zone_eq_code_iff offset).mp hz), balancedInCode?]
    congr 1
    funext e
    exact (counted_code scene b.shape _).symm

lemma lt_length_of_paired {zone : Zone} {shape : Shape} {o p : Nat}
    (h : Paired (counted scene zone shape) o p) : p < scene.document.length := by
  obtain ⟨_, s, _, hp, _⟩ := h
  have hu := ((counted_eq_some_iff scene _ _ _ _).mp hp).2.1
  apply Nat.lt_of_not_le
  intro hl
  have hn : scene.unit? p = none := Text.unit?_eq_none_iff.mpr (.inr (Int.ofNat_le.mpr hl))
  simp [hn] at hu

lemma partner?_opening (apart : scene.Apart) {o p : Nat} {s : Shape}
    (ho : scene.unit? o = some (Bracket.unit ⟨s, true⟩)) :
    partner? scene (facing o true) = some p ↔ Paired (counted scene (scene.zone o) s) o p := by
  have hp :
      partner? scene (facing o true) = (distance? scene o true (Bracket.unit ⟨s, true⟩)).map (o + ·) := by
    show (scene.unit? o).bind _ = _
    rw [ho]
    rfl
  rw [hp, distance?_eq apart ho]
  refine (balanced_map_opening _ (counted_self ho)).trans ⟨And.right, fun h => ⟨?_, h⟩⟩
  have hlt := h.1
  have hl := lt_length_of_paired h
  simp only [reach, if_true]
  omega

lemma partner?_closing (apart : scene.Apart) {o p : Nat} {s : Shape}
    (hc : scene.unit? p = some (Bracket.unit ⟨s, false⟩)) :
    partner? scene (facing p false) = some o ↔ Paired (counted scene (scene.zone p) s) o p := by
  have hp : partner? scene (facing p false) =
      (distance? scene p false (Bracket.unit ⟨s, false⟩)).map (p - ·) := by
    show (scene.unit? p).bind _ = _
    rw [hc]
    rfl
  rw [hp, distance?_eq apart hc]
  exact balanced_map_closing _ (counted_self hc)

end Delimiter

end Counterpart
