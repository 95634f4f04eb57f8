import Counterpart.Act
import Counterpart.Value

/-!
Reading settings from untyped values. A missing value gives the default; a value of the wrong kind gives
the default too, and is reported.
-/

namespace Counterpart

namespace Settings

abbrev Source := List (String × Value)

def complaint (key : String) (value : Value) : Entry :=
  .assertion (s!"Invalid setting {programName}.{key}: " ++ value.text ++ ".")

def pick {α : Type} (source : Source) (key : String) (standard : α) (accept : Value → Option α) :
    α × List Entry :=
  match source.lookup key with
  | none => (standard, [])
  | some value =>
    match accept value with
    | none => (standard, [complaint key value])
    | some accepted => (accepted, [])

def flag? : Value → Option Bool
  | .bool value => some value
  | _ => none

def key? : Value → Option String
  | .string s => if s.isEmpty then none else some s
  | _ => none

def languages? : Value → Option (List String)
  | .list items => Value.strings? items
  | _ => none

def distance? : Value → Option Number
  | .number (.finite value) => if value.den = 1 && 0 ≤ value.num then some (.finite value) else none
  | _ => none

def read (source : Source) : Settings × List Entry :=
  let standard : Settings := {}
  let shortcut := pick source "shortcut" standard.shortcut key?
  let percentageJump := pick source "percentageJump" standard.percentageJump flag?
  let alwaysSimpleJump := pick source "alwaysSimpleJump" standard.alwaysSimpleJump flag?
  let simpleJumpLanguages := pick source "simpleJumpLanguages" standard.simpleJumpLanguages languages?
  let innerKeepsLastLine := pick source "innerKeepsLastLine" standard.innerKeepsLastLine languages?
  let lineEndGuardLanguages := pick source "lineEndGuardLanguages" standard.lineEndGuardLanguages languages?
  let lineEndGuardOffset := pick source "lineEndGuardOffset" standard.lineEndGuardOffset distance?
  let debug := pick source "debug" standard.debug flag?
  ({ shortcut := shortcut.1
     percentageJump := percentageJump.1
     alwaysSimpleJump := alwaysSimpleJump.1
     simpleJumpLanguages := simpleJumpLanguages.1
     innerKeepsLastLine := innerKeepsLastLine.1
     lineEndGuardLanguages := lineEndGuardLanguages.1
     lineEndGuardOffset := lineEndGuardOffset.1
     debug := debug.1 },
   shortcut.2 ++ percentageJump.2 ++ alwaysSimpleJump.2 ++ simpleJumpLanguages.2 ++ innerKeepsLastLine.2 ++
     lineEndGuardLanguages.2 ++ lineEndGuardOffset.2 ++ debug.2)

end Settings

end Counterpart
