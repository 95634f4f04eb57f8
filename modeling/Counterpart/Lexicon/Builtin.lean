import Counterpart.Lexicon

namespace Counterpart.Lexicon

def cLike : Lexicon where
  lineComments := [units "//"]
  blockComments := [(units "/*", units "*/")]
  quotes := [units "\"", units "'", units "`"]
  multilineQuotes := [units "`"]
  escape := units "\\"
  charQuote := none

def hashComments : Lexicon where
  lineComments := [units "#"]
  blockComments := []
  quotes := [units "\"", units "'"]
  multilineQuotes := []
  escape := units "\\"
  charQuote := none

def shell : Lexicon := { hashComments with multilineQuotes := [units "\"", units "'"] }

def ruby : Lexicon := { hashComments with blockComments := [(units "=begin", units "=end")] }

def lua : Lexicon where
  lineComments := [units "--"]
  blockComments := [(units "--[[", units "]]")]
  quotes := [units "\"", units "'"]
  multilineQuotes := []
  escape := units "\\"
  charQuote := none

def sql : Lexicon where
  lineComments := [units "--"]
  blockComments := [(units "/*", units "*/")]
  quotes := [units "\"", units "'"]
  multilineQuotes := [units "\"", units "'"]
  escape := units "\\"
  charQuote := none

def rust : Lexicon where
  lineComments := [units "//"]
  blockComments := [(units "/*", units "*/")]
  quotes := [units "\""]
  multilineQuotes := [units "\""]
  escape := units "\\"
  charQuote := some (units "'")

def lispLike : Lexicon where
  lineComments := [units ";"]
  blockComments := []
  quotes := [units "\""]
  multilineQuotes := [units "\""]
  escape := units "\\"
  charQuote := none

def latex : Lexicon where
  lineComments := [units "%"]
  blockComments := []
  quotes := []
  multilineQuotes := []
  escape := units "\\"
  charQuote := none

def markup : Lexicon where
  lineComments := []
  blockComments := [(units "<!--", units "-->")]
  quotes := []
  multilineQuotes := []
  escape := []
  charQuote := none

def css : Lexicon where
  lineComments := []
  blockComments := [(units "/*", units "*/")]
  quotes := [units "\"", units "'"]
  multilineQuotes := []
  escape := units "\\"
  charQuote := none

def json : Lexicon where
  lineComments := []
  blockComments := []
  quotes := [units "\""]
  multilineQuotes := []
  escape := units "\\"
  charQuote := none

def jsonWithComments : Lexicon :=
  { json with lineComments := [units "//"], blockComments := [(units "/*", units "*/")] }

def builtin : List (String × Lexicon) := [
  ("python", hashComments), ("shellscript", shell), ("perl", hashComments), ("yaml", hashComments),
  ("cmake", hashComments), ("ruby", ruby), ("lua", lua), ("sql", sql), ("rust", rust),
  ("lisp", lispLike), ("scheme", lispLike), ("clojure", lispLike), ("latex", latex),
  ("html", markup), ("xml", markup), ("css", css), ("json", json), ("jsonc", jsonWithComments)]

def ofLanguage (language : String) : Lexicon := (builtin.lookup language).getD cLike

end Counterpart.Lexicon
