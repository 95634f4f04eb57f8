import Counterpart.Block
import Counterpart.Block.Pattern

namespace Counterpart.Block

open Pattern

def shell : List Block := [
  { opens := beginsWith (words ["if"])
    continues := beginsWith (words ["elif", "else"])
    closes := beginsWith (words ["fi"])
    closesInline := endsCommand (units "fi") },
  { opens := beginsWith (words ["case"])
    closes := beginsWith (words ["esac"])
    closesInline := endsCommand (units "esac") },
  { opens := beginsWith (words ["for", "while", "until", "select"])
    continues := beginsWith (words ["do"])
    closes := beginsWith (words ["done"])
    closesInline := endsCommand (units "done") }]

def lua : List Block := [
  { opens := fun line =>
      beginsWith (words ["function", "if", "for", "while", "do"]) line || beginsLocalFunction line ||
        holdsWord (units "function") opensCall line
    continues := beginsWith (words ["elseif", "else"])
    closes := beginsWith (words ["end"])
    closesInline := holdsWord (units "end") endsExpression },
  { opens := beginsWith (words ["repeat"])
    closes := beginsWith (words ["until"]) }]

def ruby : List Block := [
  { opens := fun line =>
      beginsWith
          (words ["def", "class", "module", "if", "unless", "while", "until", "case", "begin", "for"]) line ||
        holdsWord (units "do") endsParameters line
    continues := beginsWith (words ["elsif", "else", "when", "in", "rescue", "ensure"])
    closes := beginsWith (words ["end"])
    closesInline := holdsWord (units "end") isBlank }]

end Counterpart.Block
