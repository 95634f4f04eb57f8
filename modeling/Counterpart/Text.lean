import Counterpart.Number.Rounding

/-!
Text as UTF-16 code units. Every offset and length of the library counts these units, so a character
beyond the basic plane takes two.
-/

namespace Counterpart

abbrev unit (c : Char) : UInt16 := c.val.toUInt16

abbrev lineFeed : UInt16 := 0x0A

abbrev carriageReturn : UInt16 := 0x0D

def isIndent (u : UInt16) : Bool := u == 0x20 || u == 0x09

def isSpace (u : UInt16) : Bool :=
  (0x09 ≤ u && u ≤ 0x0D) || u == 0x20 || u == 0xA0 || u == 0x1680 || (0x2000 ≤ u && u ≤ 0x200A) ||
    u == 0x2028 || u == 0x2029 || u == 0x202F || u == 0x205F || u == 0x3000 || u == 0xFEFF

def isDigit (u : UInt16) : Bool := unit '0' ≤ u && u ≤ unit '9'

def isWord (u : UInt16) : Bool :=
  isDigit u || (unit 'a' ≤ u && u ≤ unit 'z') || (unit 'A' ≤ u && u ≤ unit 'Z') || u == unit '_'

def unitsOfChar (c : Char) : List UInt16 :=
  if c.toNat < 0x10000 then [unit c]
  else
    let rest := c.toNat - 0x10000
    [UInt16.ofNat (0xD800 + rest / 0x400), UInt16.ofNat (0xDC00 + rest % 0x400)]

abbrev Units := List UInt16

def units (s : String) : Units := s.toList.flatMap unitsOfChar

namespace Units

def isHighSurrogate (u : UInt16) : Bool := 0xD800 ≤ u && u < 0xDC00

def isLowSurrogate (u : UInt16) : Bool := 0xDC00 ≤ u && u < 0xE000

def charOfPair (high low : UInt16) : Char :=
  Char.ofNat (0x10000 + (high.toNat - 0xD800) * 0x400 + (low.toNat - 0xDC00))

def charOfUnit (u : UInt16) : Char :=
  if isHighSurrogate u || isLowSurrogate u then '\uFFFD' else Char.ofNat u.toNat

def writeOnto (written : String) : Units → String
  | [] => written
  | [u] => written.push (charOfUnit u)
  | u :: v :: rest =>
    if isHighSurrogate u && isLowSurrogate v then writeOnto (written.push (charOfPair u v)) rest
    else writeOnto (written.push (charOfUnit u)) (v :: rest)

def toString (us : Units) : String := writeOnto "" us

def findFrom (word : Units) (offset : Nat) : Units → Option Nat
  | [] => if word.isEmpty then some offset else none
  | u :: rest => if word.isPrefixOf (u :: rest) then some offset else findFrom word (offset + 1) rest

def find? (word us : Units) : Option Nat := findFrom word 0 us

def trim (us : Units) : Units :=
  ((us.dropWhile isSpace).reverse.dropWhile isSpace).reverse

end Units

structure Text where
  units : Array UInt16
deriving DecidableEq, Repr, Inhabited

namespace Text

def ofUnits (us : Units) : Text := ⟨us.toArray⟩

def ofString (s : String) : Text := ofUnits (Counterpart.units s)

def toUnits (text : Text) : Units := text.units.toList

def toString (text : Text) : String := text.toUnits.toString

def length (text : Text) : Nat := text.units.size

@[simp] theorem toUnits_ofUnits (us : Units) : (ofUnits us).toUnits = us := by simp [ofUnits, toUnits]

@[simp] theorem length_ofUnits (us : Units) : (ofUnits us).length = us.length := by simp [ofUnits, length]

theorem length_toUnits (text : Text) : text.toUnits.length = text.length := by simp [toUnits, length]

def unit? (text : Text) : Int → Option UInt16
  | .ofNat offset => text.units[offset]?
  | .negSucc _ => none

@[simp] theorem unit?_natCast (text : Text) (offset : Nat) : text.unit? offset = text.units[offset]? := rfl

theorem unit?_eq_none_iff {text : Text} {offset : Int} :
    text.unit? offset = none ↔ offset < 0 ∨ text.length ≤ offset := by
  cases offset with
  | ofNat offset =>
    simp only [unit?, length, Array.getElem?_eq_none_iff, Int.ofNat_eq_natCast]
    omega
  | negSucc offset => simp [unit?, Int.negSucc_lt_zero]

def extract (text : Text) (start stop : Nat) : Units := (text.units.extract start stop).toList

def clamp (text : Text) (offset : Int) : Nat := min offset.toNat text.length

theorem clamp_le (text : Text) (offset : Int) : text.clamp offset ≤ text.length := Nat.min_le_right _ _

def sliceBound (text : Text) (bound : Int) : Nat :=
  if bound < 0 then (bound + text.length).toNat else text.clamp bound

def slice (text : Text) (start stop : Int) : Text :=
  ⟨text.units.extract (text.sliceBound start) (text.sliceBound stop)⟩

def erase (text : Text) (start stop : Nat) : Text :=
  ⟨text.units.extract 0 start ++ text.units.extract stop text.length⟩

theorem length_erase {text : Text} {start stop : Nat} (ordered : start ≤ stop) (inside : stop ≤ text.length) :
    (text.erase start stop).length = text.length - (stop - start) := by
  simp only [length, erase, Array.size_append, Array.size_extract] at *
  omega

/-- The offset that is kept for one that was computed: an offset in the text itself, else the nearest binary64
number. -/
def settle (text : Text) (offset : Int) : Int :=
  if 0 ≤ offset && offset ≤ text.length then offset else Number.roundWhole offset

theorem settle_of_mem {text : Text} {offset : Int} (nonneg : 0 ≤ offset) (inside : offset ≤ text.length) :
    text.settle offset = offset := by
  simp [settle, nonneg, inside]

end Text

end Counterpart
