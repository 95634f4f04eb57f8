import Counterpart.Scene
import Mathlib.Tactic.Lemma

namespace Counterpart

inductive Zone where
  | comment
  | string
  | code
deriving DecidableEq, Repr

namespace Scene

variable (scene : Scene)

def zone (offset : Int) : Zone :=
  if scene.inComment offset then .comment else if scene.inString offset then .string else .code

def Apart : Prop := ∀ offset, scene.inComment offset = true → scene.inString offset = false

lemma zone_eq_comment_iff (offset : Int) : scene.zone offset = .comment ↔ scene.inComment offset = true := by
  rw [zone]
  cases scene.inComment offset <;> cases scene.inString offset <;> simp

lemma zone_eq_code_iff (offset : Int) : scene.zone offset = .code ↔ scene.inCode offset = true := by
  rw [zone, inCode]
  cases scene.inComment offset <;> cases scene.inString offset <;> simp

variable {scene}

lemma Apart.zone_eq_string_iff (apart : scene.Apart) (offset : Int) :
    scene.zone offset = .string ↔ scene.inString offset = true := by
  have ha := apart offset
  rw [zone]
  cases hc : scene.inComment offset <;> simp_all

def Styled (scene : Scene) : Prop := ∀ offset, ∃ style, scene.tags offset = Style.tags style

lemma styled_ofText (text : Text) (language : String) (settings : Settings) (selecting : Bool) :
    (ofText text language settings selecting).Styled := by
  intro offset
  cases offset with
  | ofNat offset => exact ⟨_, rfl⟩
  | negSucc offset => exact ⟨.code, rfl⟩

lemma Styled.apart (styled : scene.Styled) : scene.Apart := by
  intro offset h
  obtain ⟨style, hs⟩ := styled offset
  simp only [inComment, inString, hs] at h ⊢
  cases style <;> simp_all [Style.tags]

lemma apart_ofText (text : Text) (language : String) (settings : Settings) (selecting : Bool) :
    (ofText text language settings selecting).Apart :=
  (styled_ofText text language settings selecting).apart

lemma isGuarded_eq_false (h : scene.settings.lineEndGuardLanguages.contains scene.document.language = false)
    (offset : Int) : scene.isGuarded offset = false := by
  rw [isGuarded, h, Bool.false_and]

end Scene

end Counterpart
