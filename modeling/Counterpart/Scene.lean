import Counterpart.Document
import Counterpart.Number.Rounding
import Counterpart.Settings
import Counterpart.Styling

namespace Counterpart

structure Scene where
  document : Document
  tags : Int → Tags
  settings : Settings
  selecting : Bool

namespace Scene

def ofText (text : Text) (language : String) (settings : Settings) (selecting : Bool) : Scene :=
  let styling := Styling.ofText (Lexicon.ofLanguage language) text
  ⟨Document.ofText text language, styling.tagsAt, settings, selecting⟩

variable (scene : Scene)

def inComment (offset : Int) : Bool := (scene.tags offset).comment

def inString (offset : Int) : Bool := (scene.tags offset).string

def inCode (offset : Int) : Bool := !scene.inComment offset && !scene.inString offset

def unit? (offset : Int) : Option UInt16 := scene.document.unit? offset

def isGuarded (offset : Int) : Bool :=
  scene.settings.lineEndGuardLanguages.contains scene.document.language &&
    scene.settings.lineEndGuardOffset.spans offset (scene.document.lineEnd offset)

def isSimple : Bool :=
  scene.settings.alwaysSimpleJump || scene.settings.simpleJumpLanguages.contains scene.document.language

end Scene

end Counterpart
