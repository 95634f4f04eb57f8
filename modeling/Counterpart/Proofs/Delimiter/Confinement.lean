import Counterpart.Proofs.Delimiter.Nesting
import Counterpart.Proofs.Document.Lines

/-! The walk from a bracket is confined to its zone: it ends there, and what stands elsewhere has no bearing
on it. -/

namespace Counterpart

namespace Scene

def within (scene : Scene) : Zone → Int → Bool
  | .comment => scene.inComment
  | .string => scene.inString
  | .code => scene.inCode

structure AgreeIn (zone : Zone) (first second : Scene) : Prop where
  length : first.document.length = second.document.length
  tags : ∀ place : Nat, place < first.document.length → first.tags place = second.tags place
  units : ∀ place : Nat, place < first.document.length → first.within zone place = true →
    first.unit? place = second.unit? place

def unitWithin? (scene : Scene) (zone : Zone) (place : Nat) : Option UInt16 :=
  if scene.within zone place then scene.unit? place else none

lemma unitWithin?_outside {scene : Scene} {place : Nat} (zone : Zone) (h : scene.document.length ≤ place) :
    scene.unitWithin? zone place = none := by
  have hu : scene.unit? place = none := Text.unit?_eq_none_iff.mpr (.inr (Int.ofNat_le.mpr h))
  rw [unitWithin?, hu, ite_self]

variable {zone : Zone} {first second : Scene}

lemma within_zone (scene : Scene) (place : Int) : scene.within (scene.zone place) place = true := by
  rw [Scene.zone]
  split
  · assumption
  · split
    · assumption
    · simp_all [within, inCode]

lemma within_congr {place : Int} (h : first.tags place = second.tags place) :
    first.within zone place = second.within zone place := by
  cases zone <;> simp only [within, inCode, inComment, inString, h]

lemma zone_congr {place : Int} (h : first.tags place = second.tags place) :
    first.zone place = second.zone place := by
  rw [Scene.zone, Scene.zone, inComment, inComment, inString, inString, h]

lemma AgreeIn.unitWithin?_eq (agree : AgreeIn zone first second) :
    first.unitWithin? zone = second.unitWithin? zone := by
  funext place
  rcases Nat.lt_or_ge place first.document.length with inside | outside
  · rw [unitWithin?, unitWithin?, ← within_congr (agree.tags place inside)]
    split
    · next hw => exact agree.units place inside hw
    · rfl
  · rw [unitWithin?_outside zone outside, unitWithin?_outside zone (agree.length ▸ outside)]

end Scene

namespace Delimiter

open Counterpart.Bracket Scene

/-- The walk from a bracket as a function of what it sees: the zone it starts in, the distance it may go, and the
units of that zone. -/
def walk (zone : Zone) (reach : Nat) (read : Nat → Option UInt16) (offset : Nat) (forward : Bool) (u : UInt16) :
    Option Nat :=
  let ahead := fun distance => read (away offset forward distance)
  match zone with
  | .code => balanced forward (fun distance => (ahead distance).bind ofUnit?) [] (reach + 1) 0
  | .comment | .string => nested u ahead 1 reach 1

lemma codeBracket?_eq (scene : Scene) (place : Nat) :
    codeBracket? scene place = (scene.unitWithin? .code place).bind ofUnit? := by
  rw [codeBracket?, unitWithin?, within]
  split <;> rfl

lemma distance?_eq_walk (scene : Scene) (o : Nat) (forward : Bool) (b : Bracket) :
    distance? scene o forward b.unit =
      walk (scene.zone o) (reach scene o forward) (scene.unitWithin? (scene.zone o)) o forward b.unit := by
  rw [distance?, isQuoteGlyph_unit, if_neg Bool.false_ne_true, zone]
  split
  · rfl
  · split
    · rfl
    · simp only [walk, balancedInCode?, codeBracket?_eq]

variable {first second : Scene}

lemma distance?_agree {o : Nat} {b : Bracket} (agree : AgreeIn (first.zone o) first second)
    (ho : first.unit? o = some b.unit) (forward : Bool) :
    distance? first o forward b.unit = distance? second o forward b.unit := by
  have htags : first.tags o = second.tags o := agree.tags o (Document.lt_length_of_unit ho)
  have hreach : reach second o forward = reach first o forward := by rw [reach, reach, agree.length]
  rw [distance?_eq_walk, distance?_eq_walk, ← zone_congr htags, hreach, agree.unitWithin?_eq]

lemma partner?_agree {d : Delimiter} {b : Bracket} (agree : AgreeIn (first.zone d.offset) first second)
    (hd : first.unit? d.offset = some b.unit) : partner? first d = partner? second d := by
  obtain ⟨start, _ | offset, forward⟩ := d
  · next o =>
    have inside : o < first.document.length := Document.lt_length_of_unit hd
    have hs : second.unit? o = some b.unit := (agree.units o inside (within_zone first o)).symm.trans hd
    show (first.unit? o).bind _ = (second.unit? o).bind _
    rw [show first.unit? o = some b.unit from hd, hs, Option.bind_some, Option.bind_some, distance?_agree agree hd]
  · rfl

/-- A bracket is matched with its counterpart in the same comment-, string- or code-zone only, and two texts
in which that zone has the same places and units match it alike, whatever stands in the other zones. -/
theorem brackets_match_within_zone :
    (∀ (text : Text) (language : String) (settings : Settings) (selecting : Bool) (o : Nat) (b : Bracket)
      (bound : Int), let scene := Scene.ofText text language settings selecting
      text.unit? o = some b.unit → bound? scene (facing o b.opening) = some bound →
        ∃ p : Nat, bound = (if b.opening then (p : Int) + 1 else p) ∧ text.unit? p = some b.flip.unit ∧
          scene.zone p = scene.zone o) ∧
    ∀ (first second : Scene) (d : Delimiter) (b : Bracket), first.unit? d.offset = some b.unit →
      AgreeIn (first.zone d.offset) first second → bound? first d = bound? second d := by
  constructor
  · intro text language settings selecting o b bound scene ho hb
    have apart : scene.Apart := Scene.apart_ofText text language settings selecting
    rw [bound?_eq] at hb
    obtain ⟨p, hp, rfl⟩ := Option.map_eq_some_iff.mp hb
    obtain ⟨_, hu, hz, _⟩ := partner?_back apart ho hp
    exact ⟨p, rfl, hu, hz⟩
  · intro first second d b hd agree
    rw [bound?, bound?, partner?_agree agree hd]

theorem brackets_match_within_zone_of_call :
    let scene := fun s => Scene.ofText (.ofString s) "typescript" {} false
    let first := scene "f(\")(\", /* ( */ x) // )"
    let second := scene "f(\"xx\", /* ] */ x) // ["
    bound? first (facing 1 true) = some 18 ∧ bound? second (facing 1 true) = some 18 ∧
      ∃ p : Nat, (18 : Int) = (p : Int) + 1 ∧ first.unit? p = some (Bracket.unit ⟨.round, false⟩) ∧
        first.zone p = first.zone 1 := by
  intro scene first second
  obtain ⟨opens, matched⟩ : first.unit? 1 = some (Bracket.unit ⟨.round, true⟩) ∧
      bound? first (facing 1 true) = some 18 := by
    decide +kernel
  have agree : AgreeIn (first.zone 1) first second :=
    ⟨by decide +kernel, by decide +kernel, by decide +kernel⟩
  have partner := brackets_match_within_zone.1 _ "typescript" {} false 1 ⟨.round, true⟩ 18 opens matched
  have alike := brackets_match_within_zone.2 first second (facing 1 true) ⟨.round, true⟩ opens agree
  exact ⟨matched, alike ▸ matched, partner⟩

end Delimiter

end Counterpart
