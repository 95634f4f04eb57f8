import Counterpart.Item

/-!
Regions: the span of the pair that the item under the cursor belongs to.
-/

namespace Counterpart

structure Region where
  start : Int
  stop : Int
  inner : Bool
deriving DecidableEq, Repr

namespace Region

def outer (doc : Document) (start stop : Int) : Region :=
  ⟨if doc.onlyBlanksBefore start then doc.lineStart start else start, stop, false⟩

/-- The span between the delimiters: without their units when they share a line, else without their
lines. -/
def between (doc : Document) (keepsLastLine : Bool) (start stop : Int) : Region :=
  if stop ≤ start then ⟨stop, stop, true⟩
  else if doc.lineStart start == doc.lineStart (stop - 1) then
    let first := min (doc.text.settle (start + 1)) stop
    ⟨first, max (doc.text.settle (stop - 1)) first, true⟩
  else
    let first : Int := doc.nextLineStart start
    let last : Int := if keepsLastLine then stop else doc.lineEnd (doc.lineStart (stop - 1) - 1)
    ⟨first, max last first, true⟩

def ofEnds (scene : Scene) (inner : Bool) (mark destination : Int) : Region :=
  let doc := scene.document
  let start := min mark destination
  let stop := max mark destination
  if inner then between doc (scene.settings.innerKeepsLastLine.contains doc.language) start stop
  else outer doc start stop

def resolve (scene : Scene) (rules : List Rule) (count : Number) (inner : Bool) : Act (Option Region) := do
  let origin ← Act.cursor
  let (mark, destination?) ← Item.operate { scene with selecting := true } rules count pure
  Act.moveTo origin
  return destination?.map (ofEnds scene inner mark)

end Region

end Counterpart
