import Counterpart.Region

namespace Counterpart

def coarseThreshold : Nat := 80000

def exactShare (size : Nat) (percent : Int) : Int :=
  if coarseThreshold < size then percent * (size / 100 : Nat) else (percent * size).fdiv 100

/-- The percentage of a size beyond the exact ones: the hundredth and its multiple are rounded in turn. -/
def roundedShare (size : Nat) (percent : Int) : Number :=
  .nearest (percent * (Number.nearest ((size : Rat) / 100)).whole)

def percentageOffset (size : Nat) (percent : Number) : Nat :=
  if size ≤ exactThreshold then min (exactShare size percent.whole).toNat size
  else (roundedShare size percent.whole).clampTo size

namespace Motion

def jumpToPercentage (scene : Scene) (percent : Number) : Act Int := do
  let doc := scene.document
  let destination := doc.firstNonBlank (percentageOffset doc.length percent)
  Act.moveTo destination
  return destination

def asksPercentage (settings : Settings) (count : Option Number) : Option Number :=
  count.filter fun count => count.isPositive && settings.percentageJump

def jump (scene : Scene) (rules : List Rule) (count : Option Number) : Act (Option Int) := do
  match asksPercentage scene.settings count with
  | some percent => return some (← jumpToPercentage scene percent)
  | none =>
    let origin ← Act.cursor
    let (_, destination?) ← Item.operate scene rules (count.getD 1) fun _ => pure ()
    match destination? with
    | none => do
      Act.debug scene.settings ("no matching item at " ++ offsetText origin)
      Act.moveTo origin
      return none
    | some destination => do
      Act.moveTo destination
      return some destination

def select (scene : Scene) (rules : List Rule) (count : Option Number) (inner : Bool) : Act (Option Region) :=
  Region.resolve scene rules (count.getD 1) inner

def delete (scene : Scene) (rules : List Rule) (count : Option Number) (inner : Bool) :
    Act (Option Region) := do
  match ← Region.resolve scene rules (count.getD 1) inner with
  | none => return none
  | some region => do
    Act.moveTo region.start
    return some region

end Motion

end Counterpart
