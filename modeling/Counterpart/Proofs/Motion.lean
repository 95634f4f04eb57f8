import Counterpart.Motion
import Counterpart.Proofs.Item

/-! Motions in terms of the item under the cursor: what the hook of an item sees does not change where a jump
leads. -/

namespace Counterpart

namespace Item

variable {β : Type} (g : Int → β) (scene : Scene) (times : Number)

lemma askRules_hook (found : Option (Int × Option Int)) (rules : List Rule) :
    askRules scene times (fun start => pure (g start)) (found.map (Prod.map g id)) rules =
      Option.map (Prod.map g id) <$> askRules scene times pure found rules := by
  induction rules generalizing found with
  | nil => simp [askRules]
  | cons rule rules ih =>
    simp only [askRules, map_bind]
    congr 1
    funext tag
    cases found with
    | some found => cases tag <;> exact ih (some found)
    | none =>
      cases tag with
      | none => exact ih none
      | some tag =>
        simp only [Option.map_none, pure_bind, map_bind]
        congr 1
        funext destination
        congr 1
        funext _
        exact ih (some (rule.start tag, destination))

lemma askDelimiter_hook :
    askDelimiter scene (fun start => pure (g start)) = Prod.map g id <$> askDelimiter scene pure := by
  simp only [askDelimiter, map_bind]
  congr 1
  funext position
  congr 1
  funext d
  cases d <;> simp

lemma operate_hook (rules : List Rule) (count : Number) :
    operate scene rules count (fun start => pure (g start)) = Prod.map g id <$>
      operate scene rules count pure := by
  have asked := askRules_hook g scene count.times none (if scene.isSimple then [] else rules)
  rw [Option.map_none] at asked
  rw [operate, operate, map_bind, asked, bind_map_left]
  congr 1
  funext found
  cases found with
  | none => exact askDelimiter_hook g scene
  | some found => exact (map_pure _ _).symm

end Item

namespace Motion

open Item

lemma jump_eq (scene : Scene) (rules : List Rule) {count : Option Number}
    (counts : asksPercentage scene.settings count = none) :
    jump scene rules count = do
      let origin ← Act.cursor
      let (_, destination?) ← operate scene rules (count.getD 1) pure
      match destination? with
      | none => do
        Act.debug scene.settings ("no matching item at " ++ offsetText origin)
        Act.moveTo origin
        return none
      | some destination => do
        Act.moveTo destination
        return some destination := by
  rw [jump, counts]
  simp only [operate_hook (fun _ => ()), bind_map_left]
  rfl

lemma yields_jump {scene : Scene} {rules : List Rule} {count : Option Number} {origin between : Int}
    {found : Int × Option Int} (counts : asksPercentage scene.settings count = none)
    (operates : (operate scene rules (count.getD 1) pure).Yields origin found between) :
    (jump scene rules count).Yields origin found.2 (found.2.getD origin) := by
  obtain ⟨mark, destination⟩ := found
  rw [jump_eq scene rules counts]
  refine (Act.yields_cursor _).bind (operates.bind ?_)
  cases destination with
  | none => exact (Act.yields_debug _ _ _).bind ((Act.yields_moveTo _ _).bind (Act.yields_pure _ _))
  | some destination => exact (Act.yields_moveTo _ _).bind (Act.yields_pure _ _)

lemma endless_jump {scene : Scene} {rules : List Rule} {count : Option Number} {origin : Int}
    (counts : asksPercentage scene.settings count = none)
    (operates : (operate scene rules (count.getD 1) pure).Endless origin) :
    (jump scene rules count).Endless origin := by
  rw [jump_eq scene rules counts]
  exact (Act.yields_cursor _).bind_endless (operates.bind _)

end Motion

end Counterpart
