import Counterpart.Number.Shortest
import Counterpart.Rule

namespace Counterpart

structure Playback where
  name : String
  start : Option Int := none
  destination : Option Int := none
  inspectError : Option String := none
  jumpError : Option String := none
deriving DecidableEq, Repr

namespace Playback

def inspect (played : Playback) : Act (Option Int) := do
  Act.note (played.name ++ ".getTag")
  match played.inspectError with
  | some message => Act.raise message
  | none => return played.start

def jump (played : Playback) (start : Option Int) (count : Number) : Act (Option Int) := do
  Act.note (played.name ++ ".jump " ++ offsetText? start ++ " " ++ count.text)
  match played.jumpError with
  | some message => Act.raise message
  | none =>
    match played.destination with
    | none => return none
    | some destination => do
      Act.moveTo destination
      return some destination

def rule (played : Playback) : Rule where
  name := played.name
  Tag := Option Int
  start tag := tag.getD 0
  inspect _ := do return (← played.inspect).map some
  jump _ start count := played.jump start count

end Playback

end Counterpart
