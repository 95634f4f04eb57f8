import Counterpart.Rule

/-!
Jumping from the item under the cursor. The first rule that recognises something jumps; when none does,
the bracket or quote under the cursor gets a second chance.
-/

namespace Counterpart

namespace Item

/-- Asks the rules in order. All of them inspect, even behind the one that jumped, which `found` tells. -/
def askRules {β : Type} (scene : Scene) (times : Number) (hook : Int → Act β)
    (found : Option (β × Option Int)) :
    List Rule → Act (Option (β × Option Int))
  | [] => return found
  | rule :: rules => do
    let tag ← rule.inspectSafely scene
    match found, tag with
    | none, some tag => do
      let mark ← hook (rule.start tag)
      let destination ← rule.jump scene tag times
      Act.debug scene.settings
        (s!"rule \"{rule.name}\" jumped from " ++ offsetText (rule.start tag) ++ " to " ++
          offsetText? destination)
      askRules scene times hook (some (mark, destination)) rules
    | found, _ => askRules scene times hook found rules

def askDelimiter {β : Type} (scene : Scene) (hook : Int → Act β) : Act (β × Option Int) := do
  let position ← Act.cursor
  match ← Delimiter.inspect scene position with
  | none => return (← hook position, none)
  | some d => do
    let mark ← hook d.start
    return (mark, ← d.jump scene)

/-- Jumps `count` times from the item under the cursor. The hook sees where the item starts, once, before
the cursor moves. -/
def operate {β : Type} (scene : Scene) (rules : List Rule) (count : Number) (hook : Int → Act β) :
    Act (β × Option Int) := do
  match ← askRules scene count.times hook none (if scene.isSimple then [] else rules) with
  | some found => return found
  | none => askDelimiter scene hook

end Item

end Counterpart
