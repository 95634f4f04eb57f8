import Counterpart.Scene

namespace Counterpart

structure Selection where
  anchor : Int
  active : Int
deriving DecidableEq, Repr

namespace Selection

def isEmpty (selection : Selection) : Bool := selection.anchor == selection.active

def cursor (selection : Selection) (text : Text) : Int :=
  if selection.anchor < selection.active then text.settle (selection.active - 1) else selection.active

def afterJump (selection : Selection) (selecting : Bool) (destination : Int) : Selection :=
  if selecting then ⟨selection.anchor, destination⟩ else ⟨destination, destination⟩

def shiftEnd (text : Text) (start stop offset : Int) : Int :=
  if stop ≤ offset then text.settle (offset - (stop - start)) else min offset start

def afterErase (selection : Selection) (text : Text) (start stop : Int) : Selection :=
  ⟨shiftEnd text start stop selection.anchor, shiftEnd text start stop selection.active⟩

end Selection

def Scene.ofSelection (text : Text) (language : String) (selection : Selection) (settings : Settings) : Scene :=
  Scene.ofText text language settings !selection.isEmpty

end Counterpart
