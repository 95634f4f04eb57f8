import Counterpart.Lexicon.Builtin
import Counterpart.Token

/-!
The styling of a text: one style for each unit, painted token by token.
-/

namespace Counterpart

structure Styling where
  styles : Array Style
deriving DecidableEq, Repr, Inhabited

namespace Styling

/-- Appends the styles of the tokens. A plain unit is code unless a marker's overhang of `covered` units
still lies on it. -/
def paintOnto (painted : Array Style) (covered : Nat) : List Token → Array Style
  | [] => painted
  | token :: tokens =>
    let under := if 0 < covered then Style.commentDelimiter else Style.code
    paintOnto (painted ++ token.styles under) (max (covered - token.length) token.overhang) tokens

def ofTokens (tokens : List Token) : Styling := ⟨paintOnto #[] 0 tokens⟩

def ofText (lex : Lexicon) (text : Text) : Styling := ofTokens (Token.ofUnits lex text.toUnits)

def tagsAt (styling : Styling) : Int → Tags
  | .ofNat offset => (styling.styles.getD offset .code).tags
  | .negSucc _ => Style.code.tags

end Styling

end Counterpart
