import Mathlib.Tactic.Lemma

/-! Loops: a step leaves with an answer, or goes on from another state. -/

namespace Counterpart

/-- A loop leaves with `answer`, after it has gone on through the states of `trace`. -/
inductive Ends {σ α : Type} (step : σ → σ ⊕ α) : σ → List σ → α → Prop
  | leave {state : σ} {answer : α} : step state = .inr answer → Ends step state [] answer
  | again {state next : σ} {trace : List σ} {answer : α} :
      step state = .inl next → Ends step next trace answer → Ends step state (next :: trace) answer

variable {σ α : Type} {step : σ → σ ⊕ α} {state next : σ} {answer : α}

lemma Ends.unique {trace trace' : List σ} {answer' : α} (h : Ends step state trace answer)
    (h' : Ends step state trace' answer') : answer = answer' := by
  induction h generalizing trace' with
  | leave leaves =>
    cases h' with
    | leave leaves' => exact Sum.inr.inj (leaves.symm.trans leaves')
    | again goes_on' _ => cases leaves.symm.trans goes_on'
  | again goes_on _ ih =>
    cases h' with
    | leave leaves' => cases goes_on.symm.trans leaves'
    | again goes_on' ends' =>
      obtain rfl := Sum.inl.inj (goes_on.symm.trans goes_on')
      exact ih ends'

lemma exists_ends_leave (leaves : step state = .inr answer) (n : Nat) :
    ∃ trace, Ends step state trace answer ∧ trace.length ≤ n :=
  ⟨[], .leave leaves, Nat.zero_le n⟩

lemma exists_ends_again {n : Nat} (goes : step state = .inl next)
    (ends : ∃ trace, Ends step next trace answer ∧ trace.length ≤ n) :
    ∃ trace, Ends step state trace answer ∧ trace.length ≤ n + 1 := by
  obtain ⟨trace, ends, short⟩ := ends
  exact ⟨next :: trace, .again goes ends, Nat.succ_le_succ short⟩

end Counterpart
