/-!
Numbers as counts and percentages come in: binary64 values, held exactly. A number has a sign of zero
nowhere, since no use of one can see it.
-/

namespace Counterpart

inductive Number where
  | nan
  | infinite (negative : Bool)
  | finite (value : Rat)
deriving DecidableEq, Repr

namespace Number

instance : Inhabited Number := ⟨finite 0⟩

instance (n : Nat) : OfNat Number n := ⟨finite n⟩

def isPositive : Number → Bool
  | nan => false
  | infinite negative => !negative
  | finite value => 0 < value

def isFinite : Number → Bool
  | finite _ => true
  | _ => false

def times : Number → Number
  | nan => nan
  | infinite true => finite 1
  | infinite false => infinite false
  | finite value => finite ((max 1 value.floor : Int) : Rat)

def whole : Number → Int
  | finite value => if value < 0 then value.ceil else value.floor
  | _ => 0

def clampTo (size : Nat) : Number → Nat
  | nan => 0
  | infinite negative => if negative then 0 else size
  | finite value => min value.floor.toNat size

end Number

end Counterpart
