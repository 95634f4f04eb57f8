import Counterpart.Text

namespace Counterpart

namespace Prompt

inductive Answer where
  | cancelled
  | typed (input : Units)
  | failed (message : String)
deriving DecidableEq, Repr

def question : String := "Jump to percentage of the document"

def accepts (input : Units) : Bool := !input.trim.isEmpty && input.trim.all isDigit

def complaint? (input : Units) : Option String :=
  if accepts input then none else some "Enter a whole number from 1 to 100."

def valueOfDigits (digits : Units) : Nat :=
  digits.foldl (fun value u => 10 * value + (u.toNat - (unit '0').toNat)) 0

def leadingNumber (negative : Bool) (us : Units) : Number :=
  match us.takeWhile isDigit with
  | [] => .nan
  | digits => .ofDecimal (if negative then -valueOfDigits digits else valueOfDigits digits) 0

def percentage (input : Units) : Number :=
  match input.trim with
  | [] => .nan
  | u :: rest =>
    if u = unit '-' then leadingNumber true rest
    else if u = unit '+' then leadingNumber false rest
    else leadingNumber false (u :: rest)

end Prompt

end Counterpart
