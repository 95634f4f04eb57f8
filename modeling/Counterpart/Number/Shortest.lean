import Counterpart.Number.Rounding

/-!
The text of a number: the fewest decimal digits that read back as the same number, laid out without an
exponent as long as that stays short.
-/

namespace Counterpart.Number

structure Decimal where
  digits : Nat
  exponent : Int
deriving DecidableEq, Repr

namespace Decimal

def value (d : Decimal) : Rat := mkRat (d.digits * Nat.pow 10 d.exponent.toNat) (Nat.pow 10 (-d.exponent).toNat)

def pointOf (room : Nat) (v : Rat) (guess : Int) : Int :=
  match room with
  | 0 => guess
  | room + 1 =>
    if v < value ⟨1, guess - 1⟩ then pointOf room v (guess - 1)
    else if value ⟨1, guess⟩ ≤ v then pointOf room v (guess + 1)
    else guess

def onGrid? (v : Rat) (exponent : Int) : Option Decimal :=
  let low : Decimal := ⟨(v / value ⟨1, exponent⟩).floor.toNat, exponent⟩
  let high : Decimal := ⟨low.digits + 1, exponent⟩
  let below := v - low.value
  let above := high.value - v
  match nearest low.value == finite v, nearest high.value == finite v with
  | true, true =>
    if below < above || (below == above && low.digits % 2 == 0) then some low else some high
  | true, false => some low
  | false, true => some high
  | false, false => none

def search (v : Rat) (point : Int) : (room count : Nat) → Decimal
  | 0, count => ⟨(v / value ⟨1, point - count⟩).floor.toNat, point - count⟩
  | room + 1, count => (onGrid? v (point - count)).getD (search v point room (count + 1))

def shortest (v : Rat) : Decimal :=
  let guess : Int := ((floorLog2 v.num.natAbs v.den + 1) * 30103).fdiv 100000
  search v (pointOf 4 v guess) 17 1

end Decimal

def significant (digits : Nat) : List Char :=
  ((Nat.toDigits 10 digits).reverse.dropWhile (· == '0')).reverse

structure Layout where
  leastPoint : Int
  greatestPoint : Int

def layout : Layout := ⟨-5, 21⟩

def Layout.write (form : Layout) (digits : List Char) (point : Int) : String :=
  let count : Int := digits.length
  if count ≤ point && point ≤ form.greatestPoint then
    String.ofList (digits ++ List.replicate (point - count).toNat '0')
  else if 0 < point && point ≤ form.greatestPoint then
    String.ofList (digits.take point.toNat ++ '.' :: digits.drop point.toNat)
  else if form.leastPoint ≤ point && point ≤ 0 then
    String.ofList ('0' :: '.' :: List.replicate (-point).toNat '0' ++ digits)
  else
    let mantissa := match digits with
      | [] => ""
      | [d] => String.singleton d
      | d :: rest => String.ofList (d :: '.' :: rest)
    let power := point - 1
    mantissa ++ (if power < 0 then "e-" else "e+") ++ s!"{power.natAbs}"

def magnitudeText (v : Rat) : String :=
  let decimal := Decimal.shortest v
  let written := Nat.toDigits 10 decimal.digits
  layout.write (significant decimal.digits) (written.length + decimal.exponent)

def text : Number → String
  | nan => "NaN"
  | infinite true => "-Infinity"
  | infinite false => "Infinity"
  | finite value =>
    if value = 0 then "0"
    else if value < 0 then "-" ++ magnitudeText (-value)
    else magnitudeText value

def wholeText (n : Int) : String := if n.natAbs ≤ Nat.pow 2 53 then toString n else (nearest n).text

end Counterpart.Number
