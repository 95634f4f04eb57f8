import Counterpart.Delimiter

/-!
The partner of a delimiter. Three walks look for it: in code a stack of open brackets has to empty, within
a comment or a string the nesting of one bracket is counted, and a quote's partner is the last unit of the
same style. Each walk sees the text only by its distance from the delimiter, so that both directions are
one definition.
-/

namespace Counterpart

namespace Delimiter

def away (offset : Nat) (forward : Bool) (distance : Nat) : Nat :=
  if forward then offset + distance else offset - distance

def reach (scene : Scene) (offset : Nat) (forward : Bool) : Nat :=
  if forward then scene.document.length - 1 - offset else offset

/-- The distance at which the stack of open brackets empties, of `room` distances from `distance` on.
A bracket that faces the walk is pushed; another one has to match the top. -/
def balanced (forward : Bool) (read : Nat → Option Bracket) (stack : List Shape) :
    (room distance : Nat) → Option Nat
  | 0, _ => none
  | room + 1, distance =>
    match read distance with
    | none => balanced forward read stack room (distance + 1)
    | some b =>
      if b.opening = forward then balanced forward read (b.shape :: stack) room (distance + 1)
      else
        match stack with
        | [] => none
        | top :: below =>
          if top ≠ b.shape then none
          else if below.isEmpty then some distance
          else balanced forward read below room (distance + 1)

def nested (bracket : UInt16) (read : Nat → Option UInt16) (level : Nat) : (room distance : Nat) → Option Nat
  | 0, _ => none
  | room + 1, distance =>
    match read distance with
    | none => nested bracket read level room (distance + 1)
    | some u =>
      if u = bracket then nested bracket read (level + 1) room (distance + 1)
      else if Bracket.counterpartOf? bracket = some u then
        if level ≤ 1 then some distance else nested bracket read (level - 1) room (distance + 1)
      else nested bracket read level room (distance + 1)

def lastAlike (alike : Nat → Bool) : (room distance : Nat) → Option Nat
  | 0, _ => none
  | room + 1, distance => if alike (distance + 1) then lastAlike alike room (distance + 1) else some distance

def tagsAway (scene : Scene) (offset : Nat) (forward : Bool) (distance : Nat) : Tags :=
  scene.tags (if forward then (offset : Int) + distance else (offset : Int) - distance)

def otherQuote? (scene : Scene) (offset : Nat) (quote : UInt16) (forward : Bool) : Option Nat :=
  let alike := fun distance => scene.tags offset == tagsAway scene offset forward distance
  (lastAlike alike (reach scene offset forward + 1) 0).filter fun distance =>
    scene.unit? (away offset forward distance) == some quote

def nestedWithin? (scene : Scene) (within : Int → Bool) (offset : Nat) (bracket : UInt16) (forward : Bool) :
    Option Nat :=
  let read := fun distance =>
    let place := away offset forward distance
    if within place then scene.unit? place else none
  nested bracket read 1 (reach scene offset forward) 1

def codeBracket? (scene : Scene) (offset : Nat) : Option Bracket :=
  if scene.inCode offset then (scene.unit? offset).bind Bracket.ofUnit? else none

def balancedInCode? (scene : Scene) (offset : Nat) (forward : Bool) : Option Nat :=
  balanced forward (fun distance => codeBracket? scene (away offset forward distance)) []
    (reach scene offset forward + 1) 0

def distance? (scene : Scene) (offset : Nat) (forward : Bool) (u : UInt16) : Option Nat :=
  if isQuoteGlyph u then otherQuote? scene offset u forward
  else if scene.inComment offset then nestedWithin? scene scene.inComment offset u forward
  else if scene.inString offset then nestedWithin? scene scene.inString offset u forward
  else balancedInCode? scene offset forward

def partner? (scene : Scene) (d : Delimiter) : Option Nat :=
  match d.offset with
  | .negSucc _ => none
  | .ofNat offset =>
    (scene.unit? offset).bind fun u => (distance? scene offset d.forward u).map (away offset d.forward)

def bound? (scene : Scene) (d : Delimiter) : Option Int :=
  (partner? scene d).map fun partner => if d.forward then (partner : Int) + 1 else partner

end Delimiter

/-- Where the cursor goes for the bound of a pair: a placed cursor rests on the partner, not behind it. -/
def restingPlace (bound : Int) (forward selecting : Bool) : Int :=
  if forward && !selecting then bound - 1 else bound

namespace Delimiter

def destination? (scene : Scene) (d : Delimiter) : Option Int :=
  (bound? scene d).map fun bound => restingPlace bound d.forward scene.selecting

def jump (scene : Scene) (d : Delimiter) : Act (Option Int) :=
  match destination? scene d with
  | none => do
    Act.debug scene.settings ("no match for delimiter at " ++ offsetText d.offset)
    return none
  | some destination => do
    Act.moveTo destination
    return some destination

end Delimiter

def simpleJump (scene : Scene) : Act (Option Int) := do
  match ← Delimiter.inspect scene (← Act.cursor) with
  | none => return none
  | some d => d.jump scene

end Counterpart
