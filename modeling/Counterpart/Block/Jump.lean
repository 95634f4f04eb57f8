import Counterpart.Act
import Counterpart.Block.Search
import Counterpart.Number.Rounding

/-!
Counted jumps along the lines of a block. Each hop goes from a keyword line to its partner; a hop that
finds none ends the jump where it is.
-/

namespace Counterpart

structure Lap where
  counter : Number
  current : Option KeywordTag
  reached : Option Nat
deriving DecidableEq, Repr

namespace Lap

def first (tag : KeywordTag) : Lap := ⟨0, some tag, none⟩

def step (blocks : List Block) (scene : Scene) (count : Number) (lap : Lap) : Lap ⊕ Lap :=
  if lap.counter.less count then
    match lap.current with
    | none => .inr lap
    | some tag =>
      match (tag.partner? blocks scene).map fun found => scene.document.startOfLine found.1 with
      | none => .inr lap
      | some start => .inl ⟨lap.counter.next, KeywordTag.at? blocks scene start, some start⟩
  else .inr lap

def run (blocks : List Block) (scene : Scene) (count : Number) : (rounds : Nat) → Lap → Except Halt Lap
  | 0, _ => .error .endless
  | rounds + 1, lap =>
    match lap.step blocks scene count with
    | .inl next => run blocks scene count rounds next
    | .inr last => .ok last

/-- The destination of a jump that began at `origin`: the text of the line it reached, or its end when a
selection reached a closing line further down. -/
def destination? (scene : Scene) (origin : KeywordTag) (lap : Lap) : Option Int :=
  lap.reached.map fun start : Nat =>
    let content := scene.document.firstNonBlank start
    if scene.selecting && lap.current.any (·.keyword.role = .closing) && origin.offset < content then
      scene.document.lineEnd content
    else content

end Lap

namespace KeywordTag

/-- The lap with which a counted jump ends. A jump that counting does not end goes in a circle when it has
made more hops than there are lines. -/
def lastLap (blocks : List Block) (scene : Scene) (tag : KeywordTag) (count : Number) : Except Halt Lap :=
  Lap.run blocks scene count (count.hops.getD scene.document.lineCount + 1) (.first tag)

def jump (blocks : List Block) (scene : Scene) (tag : KeywordTag) (count : Number) : Act (Option Int) := do
  match tag.lastLap blocks scene count with
  | .error halt => throw halt
  | .ok last =>
    match last.destination? scene tag with
    | none => return none
    | some destination => do
      Act.moveTo destination
      return some destination

end KeywordTag

end Counterpart
