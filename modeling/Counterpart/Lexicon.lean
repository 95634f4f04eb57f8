import Counterpart.Text

namespace Counterpart

structure Lexicon where
  lineComments : List Units
  blockComments : List (Units × Units)
  quotes : List Units
  multilineQuotes : List Units
  escape : Units
  charQuote : Option Units
deriving DecidableEq, Repr, Inhabited

namespace Lexicon

variable (lex : Lexicon)

def isQuote (u : UInt16) : Bool := lex.quotes.contains [u]

def isMultiline (u : UInt16) : Bool := lex.multilineQuotes.contains [u]

def isEscape (u : UInt16) : Bool := lex.escape == [u]

def isCharQuote (u : UInt16) : Bool := lex.charQuote == some [u]

end Lexicon

end Counterpart
