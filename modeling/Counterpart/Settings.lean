import Counterpart.Number

namespace Counterpart

structure Settings where
  shortcut : String := "%"
  percentageJump : Bool := true
  alwaysSimpleJump : Bool := false
  simpleJumpLanguages : List String := []
  innerKeepsLastLine : List String := ["python"]
  lineEndGuardLanguages : List String := []
  lineEndGuardOffset : Number := 1
  debug : Bool := false
deriving DecidableEq, Repr, Inhabited

def programName : String := "matching-items"

end Counterpart
