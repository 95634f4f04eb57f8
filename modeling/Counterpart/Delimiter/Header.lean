import Counterpart.Delimiter.Partner

/-!
Header lines: a line whose block opens with a brace at its end or alone on the next line acts for that
brace.
-/

namespace Counterpart

structure Header where
  start : Int
  delimiter : Delimiter
deriving DecidableEq, Repr

namespace Header

def isCodeBrace (scene : Scene) (offset : Nat) : Bool :=
  scene.unit? offset == some (Bracket.unit ⟨.curly, true⟩) && scene.inCode offset

def brace? (scene : Scene) (offset : Int) : Option Nat :=
  let doc := scene.document
  match doc.lastNonBlank? offset with
  | none => none
  | some last =>
    if isCodeBrace scene last then some last
    else
      let nextLine := doc.nextLineStart offset
      if doc.length ≤ nextLine then none
      else
        let first := doc.firstNonBlank nextLine
        if isCodeBrace scene first && doc.lastNonBlank? first == some first then some first else none

def inspect (scene : Scene) : Act (Option Header) := do
  let offset ← Act.cursor
  if scene.isGuarded offset then return none
  match ← Delimiter.inspect scene offset with
  | some d => return some ⟨d.start, d⟩
  | none =>
    match brace? scene offset with
    | none => return none
    | some brace =>
      let d? ← Delimiter.inspect scene brace
      return d?.map fun d => ⟨scene.document.firstNonBlank offset, d⟩

def jump (scene : Scene) (header : Header) : Act (Option Int) := header.delimiter.jump scene

end Header

end Counterpart
