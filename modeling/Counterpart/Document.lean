import Counterpart.Text

/-!
A document: text in a language, with an index of its lines. A line ends at its line feed; a carriage
return directly before the line feed belongs to the line break.
-/

namespace Counterpart

structure LineIndex where
  starts : Array Nat
  lines : Array Nat
deriving DecidableEq, Repr, Inhabited

namespace LineIndex

def extend (index : LineIndex) (offset line : Nat) : Units → LineIndex
  | [] => { index with lines := index.lines.push line }
  | u :: rest =>
    if u = lineFeed then
      extend ⟨index.starts.push (offset + 1), index.lines.push line⟩ (offset + 1) (line + 1) rest
    else
      extend { index with lines := index.lines.push line } (offset + 1) line rest

def ofUnits (us : Units) : LineIndex := extend ⟨#[0], #[]⟩ 0 0 us

end LineIndex

structure Document where
  text : Text
  language : String
  index : LineIndex
  index_eq : index = LineIndex.ofUnits text.toUnits

namespace Document

def ofText (text : Text) (language : String) : Document :=
  ⟨text, language, LineIndex.ofUnits text.toUnits, rfl⟩

variable (doc : Document)

def length : Nat := doc.text.length

def unit? (offset : Int) : Option UInt16 := doc.text.unit? offset

def lineCount : Nat := doc.index.starts.size

def lineAt (offset : Int) : Nat := doc.index.lines.getD (doc.text.clamp offset) 0

def startOfLine (line : Nat) : Nat := doc.index.starts.getD line doc.length

def endOfLine (line : Nat) : Nat :=
  match doc.index.starts[line + 1]? with
  | none => doc.length
  | some next =>
    let newline := next - 1
    if doc.startOfLine line < newline && doc.text.units[newline - 1]? == some carriageReturn then newline - 1
    else newline

def skipIndent : (room offset : Nat) → Nat
  | 0, offset => offset
  | room + 1, offset =>
    if doc.text.units[offset]?.any isIndent then skipIndent room (offset + 1) else offset

def contentOfLine (line : Nat) : Nat :=
  let start := doc.startOfLine line
  doc.skipIndent (doc.endOfLine line - start) start

def contentUnits (line : Nat) : Units := doc.text.extract (doc.contentOfLine line) (doc.endOfLine line)

def lineStart (offset : Int) : Nat := doc.startOfLine (doc.lineAt offset)

def lineEnd (offset : Int) : Nat := doc.endOfLine (doc.lineAt offset)

def firstNonBlank (offset : Int) : Nat := doc.contentOfLine (doc.lineAt offset)

def nextLineStart (offset : Int) : Nat :=
  let stop := doc.lineEnd offset
  let newline := if doc.text.units[stop]? == some carriageReturn then stop + 1 else stop
  if doc.text.units[newline]? == some lineFeed then newline + 1 else newline

def lastContent? : (room stop : Nat) → Option Nat
  | 0, _ => none
  | room + 1, stop =>
    if doc.text.units[stop - 1]?.any isIndent then lastContent? room (stop - 1) else some (stop - 1)

def lastNonBlank? (offset : Int) : Option Nat :=
  let stop := doc.lineEnd offset
  doc.lastContent? (stop - doc.lineStart offset) stop

def onlyBlanksBefore (offset : Int) : Bool :=
  let start := doc.lineStart offset
  offset ≤ doc.skipIndent (offset - start).toNat start

end Document

end Counterpart
