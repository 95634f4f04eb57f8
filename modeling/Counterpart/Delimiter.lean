import Counterpart.Act
import Counterpart.Bracket
import Counterpart.Scene

namespace Counterpart

structure Delimiter where
  start : Int
  offset : Int
  forward : Bool
deriving DecidableEq, Repr

namespace Delimiter

/-- The direction from a delimiter to its partner. A quote that opens a string shares its tags with the
unit behind it. -/
def direction? (scene : Scene) (offset : Int) : Option Bool :=
  match scene.unit? offset with
  | none => none
  | some u =>
    match Bracket.ofUnit? u with
    | some b => some b.opening
    | none =>
      if isQuoteGlyph u && scene.inString offset then some (scene.tags offset == scene.tags (offset + 1))
      else none

def facing (offset : Int) (forward : Bool) : Delimiter :=
  ⟨if forward then offset else offset + 1, offset, forward⟩

def at? (scene : Scene) (offset : Int) : Option Delimiter :=
  if scene.isGuarded offset then none else (direction? scene offset).map (facing offset)

def inspect (scene : Scene) (offset : Int) : Act (Option Delimiter) := do
  if scene.isGuarded offset then
    Act.debug scene.settings ("line-end guard at " ++ offsetText offset)
  return at? scene offset

end Delimiter

end Counterpart
