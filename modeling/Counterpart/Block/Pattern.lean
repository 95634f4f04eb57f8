import Counterpart.Text

namespace Counterpart.Pattern

def wordEnds (us : Units) : Bool := !us.head?.any isWord

def words (ws : List String) : List Units := ws.map units

def beginsWith (ws : List Units) (line : Units) : Bool :=
  ws.any fun word => (word.isPrefixOf? line).any wordEnds

def anywhere (test : Option UInt16 → Units → Bool) (before : Option UInt16) : Units → Bool
  | [] => test before []
  | u :: rest => test before (u :: rest) || anywhere test (some u) rest

def holdsWord (word : Units) (rest : Units → Bool) (line : Units) : Bool :=
  anywhere (fun before us => !before.any isWord && (word.isPrefixOf? us).any rest) none line

def isSemicolon (u : UInt16) : Bool := u == unit ';'

def endsCommand (word : Units) (line : Units) : Bool :=
  let closes := fun us : Units =>
    let rest := us.dropWhile isSpace
    rest.isEmpty || rest.head?.any isSemicolon
  anywhere (fun before us => before.any (fun u => isSpace u || isSemicolon u) &&
    (word.isPrefixOf? us).any closes) none line

def isBlank (us : Units) : Bool := us.all isSpace

def opensCall (us : Units) : Bool := (us.dropWhile isSpace).head? == some (unit '(')

def endsExpression (us : Units) : Bool :=
  let isMark := fun u => u == unit ')' || u == unit ',' || u == unit ';'
  isBlank ((us.dropWhile isSpace).dropWhile isMark)

def endsParameters (us : Units) : Bool :=
  match us.dropWhile isSpace with
  | [] => true
  | u :: rest =>
    u == unit '|' &&
      match rest.dropWhile (· != unit '|') with
      | [] => false
      | _ :: rest => isBlank rest

def beginsLocalFunction (line : Units) : Bool :=
  match (units "local").isPrefixOf? line with
  | none => false
  | some rest => rest.head?.any isSpace && beginsWith (words ["function"]) (rest.dropWhile isSpace)

end Counterpart.Pattern
