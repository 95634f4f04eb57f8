import Counterpart.Text

namespace Counterpart

inductive Shape where
  | round
  | square
  | curly
deriving DecidableEq, Repr

structure Bracket where
  shape : Shape
  opening : Bool
deriving DecidableEq, Repr

namespace Bracket

def unit : Bracket → UInt16
  | ⟨.round, true⟩ => 0x28
  | ⟨.round, false⟩ => 0x29
  | ⟨.square, true⟩ => 0x5B
  | ⟨.square, false⟩ => 0x5D
  | ⟨.curly, true⟩ => 0x7B
  | ⟨.curly, false⟩ => 0x7D

def all : List Bracket :=
  [⟨.round, true⟩, ⟨.round, false⟩, ⟨.square, true⟩, ⟨.square, false⟩,
    ⟨.curly, true⟩, ⟨.curly, false⟩]

def ofUnit? (u : UInt16) : Option Bracket := all.find? fun b => b.unit == u

def flip (b : Bracket) : Bracket := ⟨b.shape, !b.opening⟩

@[simp] theorem flip_flip (b : Bracket) : b.flip.flip = b := by simp [flip]

theorem unit_injective {b c : Bracket} (h : b.unit = c.unit) : b = c := by
  rcases b with ⟨_ | _ | _, _ | _⟩ <;> rcases c with ⟨_ | _ | _, _ | _⟩ <;>
    first | rfl | exact absurd h (by decide)

@[simp] theorem ofUnit?_unit (b : Bracket) : ofUnit? b.unit = some b := by
  rcases b with ⟨_ | _ | _, _ | _⟩ <;> decide

theorem ofUnit?_eq_some_iff {u : UInt16} {b : Bracket} : ofUnit? u = some b ↔ u = b.unit := by
  constructor
  · intro h
    have found := List.find?_some h
    exact (eq_of_beq found).symm
  · rintro rfl
    exact ofUnit?_unit b

def counterpartOf? (u : UInt16) : Option UInt16 := (ofUnit? u).map fun b => b.flip.unit

@[simp] theorem counterpartOf?_unit (b : Bracket) : counterpartOf? b.unit = some b.flip.unit := by
  simp [counterpartOf?]

end Bracket

def isQuoteGlyph (u : UInt16) : Bool := u == 0x22 || u == 0x27 || u == 0x60

end Counterpart
