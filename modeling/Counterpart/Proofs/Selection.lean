import Counterpart.Proofs.Motion
import Counterpart.Proofs.Region.Ends
import Counterpart.Selection

namespace Counterpart

namespace Selection

open Delimiter

section

variable (text : Text) (language : String) (settings : Settings) (rules : List Rule)

def Becomes (selection after : Selection) : Prop :=
  let scene := Scene.ofSelection text language selection settings
  ∃ destination landing,
    (Motion.jump scene rules none).Yields (selection.cursor text) (some destination) landing ∧
    selection.afterJump scene.selecting destination = after

end

variable {text : Text} {language : String} {settings : Settings} {rules : List Rule} {selection : Selection}
  {x : Int}

lemma becomes_of_destination {selecting : Bool} {d : Delimiter} {destination : Int}
    (plain : rules = [] ∨ rules = [Rule.delimiters]) (he : selection.isEmpty = !selecting)
    (cursor : selection.cursor text = x) (at? : at? (Scene.ofText text language settings selecting) x = some d)
    (found : destination? (Scene.ofText text language settings selecting) d = some destination) :
    Becomes text language settings rules selection (selection.afterJump selecting destination) := by
  have scene : Scene.ofSelection text language selection settings =
      Scene.ofText text language settings selecting := by
    simp [Scene.ofSelection, he]
  have operates : (Item.operate (Scene.ofText text language settings selecting) rules 1 pure).Yields x
      (d.start, destination? _ d) _ := Item.yields_operate_delimiter (plain.imp_right .inl) at?
  have jumps := @Motion.yields_jump _ rules none x _ _ rfl operates
  rw [found] at jumps
  simp only [Becomes, scene, cursor]
  exact ⟨destination, _, jumps, rfl⟩

lemma cursor_behind {x : Int} {u : UInt16} (here : text.unit? x = some u) : cursor ⟨x, x + 1⟩ text = x := by
  have inside := mt Text.unit?_eq_none_iff.mpr (Option.ne_none_iff_exists'.mpr ⟨u, here⟩)
  rw [cursor, if_pos (Int.lt_succ x), Int.add_sub_cancel]
  apply Text.settle_of_mem <;> omega

/-- A jump from a matched bracket under the cursor of a selection keeps the anchor and moves the active end,
behind the partner further down and onto the partner further up. With nothing selected, the cursor comes to
rest on the partner. So the selection of one bracket becomes that of its pair. -/
theorem jump_extends_to_partner (text : Text) (language : String) (settings : Settings)
    (unguarded : settings.lineEndGuardLanguages.contains language = false) (rules : List Rule)
    (plain : rules = [] ∨ rules = [Rule.delimiters]) (x y : Int) (b : Bracket)
    (here : text.unit? x = some b.unit) (matched : JumpsTo (Scene.ofText text language settings false) x y) :
    let becomes := Becomes text language settings rules
    (∀ selection : Selection, selection.anchor ≠ selection.active → selection.cursor text = x →
      (x < y → becomes selection ⟨selection.anchor, y + 1⟩) ∧
        (y < x → becomes selection ⟨selection.anchor, y⟩)) ∧
    becomes ⟨x, x⟩ ⟨y, y⟩ ∧
    (b.opening = true → x < y ∧ becomes ⟨x, x + 1⟩ ⟨x, y + 1⟩) ∧
    (b.opening = false → y < x ∧ becomes ⟨x + 1, x⟩ ⟨x + 1, y⟩) := by
  intro becomes
  let placing := Scene.ofText text language settings false
  have hg : ∀ offset, placing.isGuarded offset = false := Scene.isGuarded_eq_false unguarded
  have apart : placing.Apart := Scene.apart_ofText text language settings false
  obtain ⟨hne, _⟩ := jumpsTo_back rfl hg apart here matched
  have ordered : b.opening = true ↔ x < y := Region.opening_iff_lt rfl hg apart here matched
  obtain ⟨p, rfl, partner⟩ := (jumpsTo_bracket rfl hg here).mp matched
  have front : at? placing x = some (facing x b.opening) := at?_bracket (hg x) here
  have moves : ∀ selection : Selection, selection.anchor ≠ selection.active → selection.cursor text = x →
      becomes selection ⟨selection.anchor, if b.opening then (p : Int) + 1 else p⟩ := by
    intro selection nonempty cursor
    have found := destination?_extending partner
    exact @becomes_of_destination text language settings rules selection x true _ _ plain
      (beq_false_of_ne nonempty)
      cursor front found
  refine ⟨fun selection nonempty cursor => ⟨fun down => ?_, fun up => ?_⟩, ?_,
    fun opens => ?_, fun closes => ?_⟩
  · have active := moves selection nonempty cursor
    rwa [if_pos (ordered.mpr down)] at active
  · have active := moves selection nonempty cursor
    rwa [if_neg (mt ordered.mp (by omega))] at active
  · have rests : destination? placing (facing x b.opening) = some (p : Int) := by
      rw [destination?_placing rfl, partner]
      rfl
    exact @becomes_of_destination text language settings rules ⟨x, x⟩ x false _ _ plain (by simp [isEmpty])
      (by simp [Selection.cursor]) front rests
  · have active := moves ⟨x, x + 1⟩ (show x ≠ x + 1 by omega) (cursor_behind here)
    rw [if_pos opens] at active
    exact ⟨ordered.mp opens, active⟩
  · have active := moves ⟨x + 1, x⟩ (show x + 1 ≠ x by omega) (if_neg (show ¬ x + 1 < x by omega))
    rw [closes] at active
    exact ⟨by rw [← Bool.not_eq_true, ordered] at closes; omega, active⟩

theorem jump_extends_to_partner_in_comment :
    let text := Text.ofString "(x /* [(]) */)"
    let becomes := Becomes text "css" {} (Rulebook.standard.lookup "css")
    JumpsTo (Scene.ofText text "css" {} false) 6 8 ∧ becomes ⟨2, 7⟩ ⟨2, 9⟩ ∧
      becomes ⟨6, 7⟩ ⟨6, 9⟩ := by
  intro text becomes
  have unguarded : ({} : Settings).lineEndGuardLanguages.contains "css" = false := by decide
  obtain ⟨here, matched, active⟩ : text.unit? 6 = some (Bracket.unit ⟨.square, true⟩) ∧
      JumpsTo (Scene.ofText text "css" {} false) 6 8 ∧ cursor ⟨2, 7⟩ text = 6 := by
    rw [jumpsTo_iff]
    decide +kernel
  obtain ⟨moves, _, opens, _⟩ :=
    jump_extends_to_partner text "css" {} unguarded (Rulebook.standard.lookup "css") (.inr rfl) 6 8 _ here matched
  exact ⟨matched, (moves ⟨2, 7⟩ (by decide) active).1 (by decide), (opens rfl).2⟩

end Selection

end Counterpart
