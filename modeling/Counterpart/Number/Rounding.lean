import Counterpart.Number

/-!
Rounding a rational number to the nearest binary64 value, where a half goes to the even neighbour and what
is too large becomes infinite; and counting with such numbers.
-/

namespace Counterpart

def exactThreshold : Nat := Nat.pow 2 53

namespace Number

def roundHalfEven (num den : Nat) : Nat :=
  let quotient := num / den
  let twice := 2 * (num % den)
  if twice < den || (twice == den && quotient % 2 == 0) then quotient else quotient + 1

def floorLog2 (num den : Nat) : Int :=
  let guess : Int := (num.log2 : Int) - den.log2
  if num * Nat.pow 2 (-guess).toNat < den * Nat.pow 2 guess.toNat then guess - 1 else guess

def lastPlace (num den : Nat) : Int := max (floorLog2 num den - 52) (-1074)

def nearest (value : Rat) : Number :=
  if value = 0 then finite 0
  else
    let num := value.num.natAbs
    let place := lastPlace num value.den
    let kept := roundHalfEven (num * Nat.pow 2 (-place).toNat) (value.den * Nat.pow 2 place.toNat)
    let magnitude := mkRat (kept * Nat.pow 2 place.toNat) (Nat.pow 2 (-place).toNat)
    if Nat.pow 2 1024 ≤ magnitude then infinite (value < 0)
    else finite (if value < 0 then -magnitude else magnitude)

def ofDecimal (mantissa : Int) (places : Nat) : Number := nearest (mkRat mantissa (Nat.pow 10 places))

def roundWhole (n : Int) : Int := if n.natAbs ≤ exactThreshold then n else (nearest n).whole

/-- Whether `place` lies at a distance before `stop`. A difference that is no binary64 number counts as the
nearest one. -/
def spans (distance : Number) (place stop : Int) : Bool :=
  match distance with
  | finite value => (place : Rat) == stop - value || nearest (stop - value) == finite place
  | _ => false

def less : Number → Number → Bool
  | nan, _ => false
  | _, nan => false
  | infinite negative, infinite other => negative && !other
  | infinite negative, finite _ => negative
  | finite _, infinite negative => !negative
  | finite value, finite other => value < other

def next : Number → Number
  | finite value => nearest (value + 1)
  | n => n

/-- How often one counts on from 0 before the counter is no longer less than `count`; `none` when it stays
less, since counting does not get beyond 2^53. -/
def hops (count : Number) : Option Nat :=
  if (finite exactThreshold).less count then none
  else
    match count with
    | finite value => some value.ceil.toNat
    | _ => some 0

end Number

end Counterpart
