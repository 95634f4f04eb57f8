import Counterpart.Settings
import Counterpart.Value

namespace Counterpart

inductive Command where
  | jump
  | select
  | selectInner
  | delete
  | deleteInner
  | jumpToPercentage
  | showSettings
deriving DecidableEq, Repr

namespace Command

def all : List Command := [jump, select, selectInner, delete, deleteInner, jumpToPercentage, showSettings]

def name : Command → String
  | jump => "jumpItems"
  | select => "selectItems"
  | selectInner => "selectInnerItems"
  | delete => "deleteItems"
  | deleteInner => "deleteInnerItems"
  | jumpToPercentage => "jumpToPercentage"
  | showSettings => "showSettings"

def id (command : Command) : String := programName ++ "." ++ command.name

def ofId? (s : String) : Option Command := all.find? fun command => command.id == s

def countOf? : Value → Option Number
  | .number count => some count
  | .object fields =>
    match fields.lookup "count" with
    | some (.number count) => some count
    | _ => none
  | _ => none

def count? (arguments : List Value) : Option Number := arguments.head?.bind countOf?

end Command

end Counterpart
