import Counterpart.Proofs.Number.Rounding

/-! Counting by ones: the counter gets to 2^53 and no further, which makes some counts unreachable. -/

namespace Counterpart

namespace Number

/-- The counter when one has counted on `n` times. -/
def tally (n : Nat) : Number := finite (min n exactThreshold : Nat)

lemma tally_zero : tally 0 = 0 := by
  rw [tally, Nat.zero_min]
  rfl

lemma next_tally (n : Nat) : (tally n).next = tally (n + 1) := by
  rcases Nat.lt_or_ge n exactThreshold with small | large
  · rw [tally, tally, Nat.min_eq_left (Nat.le_of_lt small), Nat.min_eq_left small, next, ← Nat.cast_succ]
    exact nearest_natCast_of_le small
  · -- 2^53 + 1 lies halfway between two values, of which 2^53 is the even one.
    have stays : nearest ((exactThreshold : Nat) + 1) = finite exactThreshold := by decide +kernel
    rw [tally, tally, Nat.min_eq_right large, Nat.min_eq_right (Nat.le_succ_of_le large), next, stays]

lemma natCast_lt_iff {n : Nat} {value : Rat} : (n : Rat) < value ↔ n < value.ceil.toNat := by
  have ceil : value.ceil ≤ (n : Int) ↔ value ≤ (n : Int) := Rat.ceil_le_iff
  rw [Int.cast_natCast] at ceil
  rw [← not_le, ← ceil]
  omega

variable {count : Number}

lemma less_tally_of_none (unreachable : count.hops = none) (n : Nat) : (tally n).less count = true := by
  unfold hops at unreachable
  split at unreachable
  · next beyond =>
    cases count with
    | nan => contradiction
    | infinite negative => exact beyond
    | finite value =>
      have large : (exactThreshold : Rat) < value := of_decide_eq_true beyond
      exact decide_eq_true (lt_of_le_of_lt (Nat.cast_le.mpr (Nat.min_le_right n exactThreshold)) large)
  · cases count <;> contradiction

lemma less_tally_of_some {limit : Nat} (h : count.hops = some limit) (n : Nat) :
    (tally n).less count = decide (n < limit) := by
  unfold hops at h
  split at h
  · contradiction
  · next reachable =>
    cases count with
    | nan =>
      obtain rfl := Option.some.inj h
      rfl
    | infinite negative =>
      obtain rfl := Option.some.inj h
      exact Bool.eq_false_iff.mpr reachable
    | finite value =>
      obtain rfl := Option.some.inj h
      have small : ¬ (exactThreshold : Rat) < value := fun large => reachable (decide_eq_true large)
      rw [natCast_lt_iff] at small
      rw [tally, less, decide_eq_decide, natCast_lt_iff]
      omega

lemma hops_natCast {n : Nat} (h : n ≤ exactThreshold) : (finite n).hops = some n := by
  have reachable : ¬ (finite exactThreshold).less (finite n) = true := fun beyond =>
    Nat.not_lt.mpr h (Nat.cast_lt.mp (of_decide_eq_true beyond))
  rw [hops, if_neg reachable]
  exact congrArg (fun ceil : Int => some ceil.toNat) (Rat.ceil_intCast n)

lemma hops_natCast_of_lt {n : Nat} (h : exactThreshold < n) : (finite n).hops = none :=
  if_pos (decide_eq_true (Nat.cast_lt.mpr h))

end Number

end Counterpart
