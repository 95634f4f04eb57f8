import Counterpart.Block

/-!
The partner of a keyword line: the next line of the same block at the same depth. Looking down from an
opening or middle line it is a middle or closing line, looking up from a closing line it is the opening
line. A selection spans the whole block, so it passes over middle lines.
-/

namespace Counterpart

namespace Block

/-- The distance at which the partner lies, of `room` lines from `distance` on, with `depth` blocks open.
A line of role `entering` opens one more; `pausing` walks stop at a middle line of their own block. -/
def seek (number : Nat) (entering : Role) (pausing : Bool) (read : Nat → Option LineKeyword) :
    (room distance depth : Nat) → Option (Nat × LineKeyword)
  | 0, _, _ => none
  | room + 1, distance, depth =>
    match read distance with
    | none => seek number entering pausing read room (distance + 1) depth
    | some keyword =>
      if keyword.block ≠ number then seek number entering pausing read room (distance + 1) depth
      else if keyword.role = entering then seek number entering pausing read room (distance + 1) (depth + 1)
      else if keyword.role = .middle then
        if pausing && depth = 0 then some (distance, keyword)
        else seek number entering pausing read room (distance + 1) depth
      else if depth = 0 then some (distance, keyword)
      else seek number entering pausing read room (distance + 1) (depth - 1)

def partnerOfLine? (blocks : List Block) (scene : Scene) (line : Nat) (keyword : LineKeyword) :
    Option (Nat × LineKeyword) :=
  if keyword.role = .closing then
    let read := fun distance => keywordOfLine? blocks scene (line - 1 - distance)
    (seek keyword.block .closing false read line 0 0).map fun (distance, found) =>
      (line - 1 - distance, found)
  else
    let read := fun distance => keywordOfLine? blocks scene (line + 1 + distance)
    (seek keyword.block .opening (!scene.selecting) read (scene.document.lineCount - (line + 1)) 0 0).map
      fun (distance, found) => (line + 1 + distance, found)

end Block

def KeywordTag.partner? (blocks : List Block) (scene : Scene) (tag : KeywordTag) :
    Option (Nat × LineKeyword) :=
  Block.partnerOfLine? blocks scene (scene.document.lineAt tag.offset) tag.keyword

end Counterpart
