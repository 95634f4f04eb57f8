import Counterpart.Number.Shortest

namespace Counterpart

inductive Value where
  | null
  | bool (value : Bool)
  | number (value : Number)
  | string (value : String)
  | list (items : List Value)
  | object (fields : List (String × Value))
deriving Inhabited

namespace Value

def hexDigits (n : Nat) : String :=
  let digits := Nat.toDigits 16 n
  String.ofList (List.replicate (4 - digits.length) '0' ++ digits)

def writeChar (c : Char) : String :=
  if c = '"' then "\\\""
  else if c = '\\' then "\\\\"
  else if c = '\n' then "\\n"
  else if c = '\r' then "\\r"
  else if c = '\t' then "\\t"
  else if c.toNat = 0x08 then "\\b"
  else if c.toNat = 0x0C then "\\f"
  else if c.toNat < 0x20 then "\\u" ++ hexDigits c.toNat
  else String.singleton c

def quoted (s : String) : String :=
  "\"" ++ s.toList.foldl (fun written c => written ++ writeChar c) "" ++ "\""

def numberText (n : Number) : String := if n.isFinite then n.text else "null"

mutual

def text : Value → String
  | null => "null"
  | bool value => if value then "true" else "false"
  | number value => numberText value
  | string value => quoted value
  | list items => "[" ++ ",".intercalate (itemTexts items) ++ "]"
  | object fields => "\x7b" ++ ",".intercalate (fieldTexts fields) ++ "\x7d"

def itemTexts : List Value → List String
  | [] => []
  | item :: items => item.text :: itemTexts items

def fieldTexts : List (String × Value) → List String
  | [] => []
  | (key, value) :: fields => (quoted key ++ ":" ++ value.text) :: fieldTexts fields

end

def strings? : List Value → Option (List String)
  | [] => some []
  | string s :: items => (strings? items).map (s :: ·)
  | _ :: _ => none

end Value

end Counterpart
