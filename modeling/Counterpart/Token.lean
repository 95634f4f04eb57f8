import Counterpart.Lexicon

/-!
The tokens of a text: comments, strings, character literals and plain units, read from left to right.
A token is read off the units that remain, so the tokens behind a boundary do not depend on what
stands before it.
-/

namespace Counterpart

inductive Style where
  | code
  | comment
  | commentDelimiter
  | string
deriving DecidableEq, Repr, Inhabited

structure Tags where
  comment : Bool := false
  commentDelimiter : Bool := false
  string : Bool := false
deriving DecidableEq, Repr, Inhabited

def Style.tags : Style → Tags
  | code => ⟨false, false, false⟩
  | comment => ⟨true, false, false⟩
  | commentDelimiter => ⟨true, true, false⟩
  | string => ⟨false, false, true⟩

inductive Token where
  | plain
  | blockComment (opener body closer : Nat)
  | lineComment (marker length : Nat)
  | string (length : Nat)
  | character (length : Nat)
deriving DecidableEq, Repr, Inhabited

namespace Token

def length : Token → Nat
  | plain => 1
  | blockComment opener body closer => opener + body + closer
  | lineComment _ length => length
  | string length => length
  | character length => length

def styles (under : Style) : Token → List Style
  | plain => [under]
  | blockComment opener body closer =>
    List.replicate opener .commentDelimiter ++ List.replicate body .comment ++
      List.replicate closer .commentDelimiter
  | lineComment marker length =>
    List.replicate (min marker length) .commentDelimiter ++ List.replicate (length - marker) .comment
  | string length => List.replicate length .string
  | character length => List.replicate length .string

/-- How far a token styles beyond its end: a marker that holds a line feed is longer than its token. -/
def overhang : Token → Nat
  | lineComment marker length => marker - length
  | _ => 0

@[simp] theorem length_styles (token : Token) (under : Style) : (token.styles under).length = token.length := by
  cases token <;> simp [styles, length] <;> omega

def blockCommentOf? (us : Units) : List (Units × Units) → Option Token
  | [] => none
  | (opener, closer) :: pairs =>
    if !opener.isEmpty && opener.isPrefixOf us then
      let body := us.drop opener.length
      some <| match Units.find? closer body with
        | some offset => blockComment opener.length offset closer.length
        | none => blockComment opener.length body.length 0
    else blockCommentOf? us pairs

def lineCommentOf? (us : Units) : List Units → Option Token
  | [] => none
  | marker :: markers =>
    if !marker.isEmpty && marker.isPrefixOf us then
      some (lineComment marker.length (max 1 (us.takeWhile (· != lineFeed)).length))
    else lineCommentOf? us markers

def stringLength (lex : Lexicon) (quote : UInt16) (length : Nat) : Units → Nat
  | [] => length
  | u :: rest =>
    if u == quote then length + 1
    else if u == lineFeed && !lex.isMultiline quote then length
    else if lex.isEscape u then
      match rest with
      | [] => length + 1
      | _ :: rest => stringLength lex quote (length + 2) rest
    else stringLength lex quote (length + 1) rest

def characterLength? (lex : Lexicon) (quote : UInt16) (rest : Units) : Option Nat :=
  if rest.head?.any lex.isEscape then
    match Units.find? [quote] (rest.drop 2) with
    | none => none
    | some offset =>
      if ((quote :: rest).take (offset + 3)).contains lineFeed then none else some (offset + 4)
  else if rest[1]? == some quote && rest.head? != some lineFeed then some 3
  else none

def next (lex : Lexicon) (u : UInt16) (rest : Units) : Token :=
  match blockCommentOf? (u :: rest) lex.blockComments with
  | some token => token
  | none =>
    match lineCommentOf? (u :: rest) lex.lineComments with
    | some token => token
    | none =>
      if lex.isQuote u then string (stringLength lex u 1 rest)
      else if lex.isCharQuote u then
        match characterLength? lex u rest with
        | some length => character length
        | none => plain
      else plain

theorem length_pos_of_blockCommentOf? {us : Units} {pairs : List (Units × Units)} {token : Token}
    (h : blockCommentOf? us pairs = some token) : 0 < token.length := by
  induction pairs with
  | nil => simp [blockCommentOf?] at h
  | cons pair pairs ih =>
    simp only [blockCommentOf?] at h
    split at h
    next opens =>
      have nonempty : 0 < pair.1.length := by
        cases hp : pair.1 <;> simp_all
      simp only [Option.some.injEq] at h
      subst h
      split <;> simp only [length] <;> omega
    next => exact ih h

theorem length_pos_of_lineCommentOf? {us : Units} {markers : List Units} {token : Token}
    (h : lineCommentOf? us markers = some token) : 0 < token.length := by
  induction markers with
  | nil => simp [lineCommentOf?] at h
  | cons marker markers ih =>
    simp only [lineCommentOf?] at h
    split at h
    next => simp only [Option.some.injEq] at h; subst h; simp only [length]; omega
    next => exact ih h

theorem le_stringLength (lex : Lexicon) (quote : UInt16) (read : Nat) (us : Units) :
    read ≤ stringLength lex quote read us := by
  fun_induction stringLength lex quote read us <;> omega

theorem characterLength?_pos {lex : Lexicon} {quote : UInt16} {rest : Units} {length : Nat}
    (h : characterLength? lex quote rest = some length) : 0 < length := by
  rw [characterLength?] at h
  split at h
  next =>
    split at h
    next => contradiction
    next =>
      split at h
      next => contradiction
      next => simp only [Option.some.injEq] at h; omega
  next =>
    split at h
    next => simp only [Option.some.injEq] at h; omega
    next => contradiction

theorem length_next_pos (lex : Lexicon) (u : UInt16) (rest : Units) : 0 < (next lex u rest).length := by
  rw [next]
  split
  next h => exact length_pos_of_blockCommentOf? h
  next =>
    split
    next h => exact length_pos_of_lineCommentOf? h
    next =>
      split
      next => exact le_stringLength lex u 1 rest
      next =>
        split
        next =>
          split
          next h => exact characterLength?_pos h
          next => exact Nat.one_pos
        next => exact Nat.one_pos

def readOnto (lex : Lexicon) (read : Array Token) : (skip : Nat) → Units → Array Token
  | _, [] => read
  | skip + 1, _ :: rest => readOnto lex read skip rest
  | 0, u :: rest =>
    let token := next lex u rest
    readOnto lex (read.push token) (token.length - 1) rest

def ofUnits (lex : Lexicon) (us : Units) : List Token := (readOnto lex #[] 0 us).toList

end Token

end Counterpart
