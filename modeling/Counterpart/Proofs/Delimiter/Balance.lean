import Counterpart.Proofs.Delimiter.Nesting
import Counterpart.Proofs.Document.Lines

namespace Counterpart

namespace Delimiter

open Counterpart.Bracket

/-- The brackets of code from `o` to `p`: an opening one at `o`, a well-bracketed word, and the counterpart of the
first at `p`. -/
def Encloses (scene : Scene) (o p : Nat) : Prop :=
  ∃ s word, WellBracketed word ∧ codeBracket? scene o = some ⟨s, true⟩ ∧
    codeBracket? scene p = some ⟨s, false⟩ ∧
    span (codeBracket? scene) o (p + 1) = ⟨s, true⟩ :: word ++ [⟨s, false⟩]

variable {scene : Scene}

lemma encloses_iff_paired (o p : Nat) : Encloses scene o p ↔ Paired (codeBracket? scene) o p :=
  paired_iff_span.symm

lemma lt_length_of_codeBracket {place : Nat} {b : Bracket} (h : codeBracket? scene place = some b) :
    place < scene.document.length :=
  Document.lt_length_of_unit (codeBracket?_eq_some_iff.mp h).2

section

variable (start : Int) {x : Nat} {s : Shape} (code : scene.inCode x = true)
include code

lemma partner?_in_code {b : Bracket} (hx : scene.unit? x = some b.unit) :
    partner? scene ⟨start, x, b.opening⟩ = (balancedInCode? scene x b.opening).map (away x b.opening) := by
  show (scene.unit? x).bind _ = _
  rw [hx, Option.bind_some, distance?_of_code code]

lemma partner?_from_opening (hx : scene.unit? x = some (Bracket.unit ⟨s, true⟩)) (p : Nat) :
    partner? scene ⟨start, x, true⟩ = some p ↔ Encloses scene x p := by
  have opens : codeBracket? scene x = some ⟨s, true⟩ := codeBracket?_eq_some_iff.mpr ⟨code, hx⟩
  rw [partner?_in_code start code hx, encloses_iff_paired]
  -- The room of the walk is no bound: every bracket stands in the text.
  refine (balanced_map_opening _ opens).trans ⟨And.right, fun h => ⟨?_, h⟩⟩
  obtain ⟨hlt, _, _, hp, _⟩ := id h
  have hl := lt_length_of_codeBracket hp
  simp only [reach, if_true]
  omega

lemma partner?_from_closing (hx : scene.unit? x = some (Bracket.unit ⟨s, false⟩)) (o : Nat) :
    partner? scene ⟨start, x, false⟩ = some o ↔ Encloses scene o x := by
  have closes : codeBracket? scene x = some ⟨s, false⟩ := codeBracket?_eq_some_iff.mpr ⟨code, hx⟩
  rw [partner?_in_code start code hx, encloses_iff_paired]
  exact balanced_map_closing _ closes

end

lemma bound?_iff_of_partner? {d : Delimiter} {found : Nat → Prop}
    (h : ∀ p, partner? scene d = some p ↔ found p) :
    (∀ p : Nat, bound? scene d = some (if d.forward then (p : Int) + 1 else p) ↔ found p) ∧
      (bound? scene d = none ↔ ∀ p, ¬ found p) := by
  constructor
  · intro p
    rw [← h, bound?_eq, Option.map_eq_some_iff]
    constructor
    · rintro ⟨q, hq, he⟩
      obtain rfl : q = p := by
        split at he <;> omega
      exact hq
    · intro hp
      exact ⟨p, hp, rfl⟩
  · rw [bound?_eq, Option.map_eq_none_iff, Option.eq_none_iff_forall_ne_some]
    simp only [Ne, h]

/-- In code, the walk from a bracket ends where the brackets passed are balanced over all three shapes, and
has no end just when they are balanced nowhere. -/
theorem walk_ends_where_brackets_balance (scene : Scene) (start : Int) (x : Nat) (s : Shape)
    (code : scene.inCode x = true) :
    (scene.unit? x = some (Bracket.unit ⟨s, true⟩) →
      (∀ p : Nat, bound? scene ⟨start, x, true⟩ = some ((p : Int) + 1) ↔ Encloses scene x p) ∧
      (bound? scene ⟨start, x, true⟩ = none ↔ ∀ p, ¬ Encloses scene x p)) ∧
    (scene.unit? x = some (Bracket.unit ⟨s, false⟩) →
      (∀ o : Nat, bound? scene ⟨start, x, false⟩ = some (o : Int) ↔ Encloses scene o x) ∧
      (bound? scene ⟨start, x, false⟩ = none ↔ ∀ o, ¬ Encloses scene o x)) := by
  constructor
  · intro opens
    exact bound?_iff_of_partner? (partner?_from_opening start code opens)
  · intro closes
    exact bound?_iff_of_partner? (partner?_from_closing start code closes)

theorem walk_ends_where_brackets_balance_past_comment :
    let scene := Scene.ofText (.ofString "f(a[/* ) */1], ')')") "typescript" {} false
    let crossed := Scene.ofText (.ofString "([)])") "typescript" {} false
    scene.inCode 1 = true ∧ scene.unit? 1 = some (Bracket.unit ⟨.round, true⟩) ∧ Encloses scene 1 18 ∧
      crossed.inCode 4 = true ∧ crossed.unit? 4 = some (Bracket.unit ⟨.round, false⟩) ∧
        ∀ o, ¬ Encloses crossed o 4 := by
  intro scene crossed
  have code : scene.inCode 1 = true := by decide +kernel
  have opens : scene.unit? 1 = some (Bracket.unit ⟨.round, true⟩) := by decide +kernel
  have code' : crossed.inCode 4 = true := by decide +kernel
  have closes : crossed.unit? 4 = some (Bracket.unit ⟨.round, false⟩) := by decide +kernel
  have ends := ((walk_ends_where_brackets_balance scene 1 1 .round code).1 opens).1 18
  have fails := ((walk_ends_where_brackets_balance crossed 5 4 .round code').2 closes).2
  exact ⟨code, opens, ends.mp (by decide +kernel), code', closes, fails.mp (by decide +kernel)⟩

end Delimiter

end Counterpart
