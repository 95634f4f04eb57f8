import Counterpart.Block.Jump
import Counterpart.Delimiter.Header

namespace Counterpart

structure Rule where
  name : String
  Tag : Type
  start : Tag → Int
  inspect : Scene → Act (Option Tag)
  jump : Scene → Tag → Number → Act (Option Int)

namespace Rule

def delimiters : Rule where
  name := "simple"
  Tag := Header
  start := Header.start
  inspect := Header.inspect
  jump scene header _ := header.jump scene

def keywords (name : String) (blocks : List Block) : Rule where
  name := name
  Tag := KeywordTag
  start := KeywordTag.start
  inspect scene := do return KeywordTag.at? blocks scene (← Act.cursor)
  jump scene tag count := tag.jump blocks scene count

def failure (rule : Rule) (position : Int) (cause : String) : Entry :=
  .error (programName ++
    s!": rule \"{rule.name}\" failed to inspect position " ++ offsetText position ++ ":") cause

def inspectSafely (rule : Rule) (scene : Scene) : Act (Option rule.Tag) :=
  tryCatch (rule.inspect scene) fun halt =>
    match halt with
    | .raised message => do
      Act.record (rule.failure (← Act.cursor) message)
      return none
    | .endless => throw .endless

end Rule

end Counterpart
