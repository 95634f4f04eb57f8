import Counterpart.Scene

/-!
Keyword blocks: pairs of lines that begin with keywords, such as `if` and `fi`.
-/

namespace Counterpart

structure Block where
  opens : Units → Bool
  continues : Units → Bool := fun _ => false
  closes : Units → Bool
  closesInline : Units → Bool := fun _ => false

inductive Role where
  | opening
  | middle
  | closing
deriving DecidableEq, Repr

structure LineKeyword where
  block : Nat
  role : Role
deriving DecidableEq, Repr

namespace Block

def role? (block : Block) (line : Units) : Option Role :=
  if block.closes line then some .closing
  else if block.continues line then some .middle
  else if block.opens line && !block.closesInline line then some .opening
  else none

def keywordFrom? (line : Units) (number : Nat) : List Block → Option LineKeyword
  | [] => none
  | block :: blocks =>
    match block.role? line with
    | some role => some ⟨number, role⟩
    | none => keywordFrom? line (number + 1) blocks

def keywordOfLine? (blocks : List Block) (scene : Scene) (line : Nat) : Option LineKeyword :=
  let doc := scene.document
  let content := doc.contentOfLine line
  if content = doc.endOfLine line || !scene.inCode content then none
  else keywordFrom? (doc.contentUnits line) 0 blocks

end Block

structure KeywordTag where
  keyword : LineKeyword
  start : Int
  offset : Int
deriving DecidableEq, Repr

namespace KeywordTag

def ofLine (doc : Document) (line : Nat) (keyword : LineKeyword) : KeywordTag :=
  let content := doc.contentOfLine line
  ⟨keyword, if keyword.role = .closing then doc.endOfLine line else content, content⟩

def at? (blocks : List Block) (scene : Scene) (offset : Int) : Option KeywordTag :=
  let line := scene.document.lineAt offset
  (Block.keywordOfLine? blocks scene line).map (ofLine scene.document line)

end KeywordTag

end Counterpart
