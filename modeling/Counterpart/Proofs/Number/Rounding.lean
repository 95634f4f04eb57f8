import Counterpart.Number.Rounding
import Mathlib.Algebra.Order.Ring.Rat
import Mathlib.Data.Rat.Lemmas
import Mathlib.Tactic.Lemma
import Mathlib.Tactic.Linarith

namespace Counterpart

namespace Number

lemma floorLog2_one {num : Nat} (h : num ≠ 0) : floorLog2 num 1 = num.log2 := by
  have hle := Nat.log2_self_le h
  have hone : Nat.log2 1 = 0 := by decide
  have hneg : (-(num.log2 : Int)).toNat = 0 := Int.toNat_of_nonpos (by omega)
  rw [floorLog2, hone]
  simp only [Int.natCast_zero, Int.sub_zero, hneg, Int.toNat_natCast, Nat.pow_eq, Nat.one_mul, Nat.pow_zero,
    Nat.mul_one]
  rw [if_neg (Nat.not_lt.mpr hle)]

lemma lastPlace_one {num : Nat} (h : num ≠ 0) : lastPlace num 1 = (num.log2 : Int) - 52 := by
  rw [lastPlace, floorLog2_one h]
  exact max_eq_left (by omega)

lemma roundHalfEven_one (num : Nat) : roundHalfEven num 1 = num := by
  simp [roundHalfEven, Nat.mod_one]

lemma le_roundHalfEven {num den k : Nat} (hd : 0 < den) (h : k * den ≤ num) : k ≤ roundHalfEven num den := by
  have hq : k ≤ num / den := (Nat.le_div_iff_mul_le hd).mpr h
  rw [roundHalfEven]
  split <;> omega

lemma nearest_natCast {n : Nat} (h : n < 2 ^ 53) : nearest n = finite n := by
  by_cases hn : n = 0
  · subst hn
    rfl
  · have hlog : n.log2 < 53 := (Nat.log2_lt hn).mpr h
    obtain ⟨k, hk⟩ : ∃ k : Nat, lastPlace n 1 = -(k : Int) :=
      ⟨52 - n.log2, by rw [lastPlace_one hn]; omega⟩
    have hnz : (n : Rat) ≠ 0 := by exact_mod_cast hn
    have hneg : ¬ (n : Rat) < 0 := by
      push Not
      exact_mod_cast Nat.zero_le n
    have hsmall : ∀ e : Nat, 53 ≤ e → ¬ ((Nat.pow 2 e : Nat) : Rat) ≤ n := by
      intro e he
      have hlt : n < Nat.pow 2 e := Nat.lt_of_lt_of_le h (Nat.pow_le_pow_right (by omega) he)
      exact_mod_cast Nat.not_le.mpr hlt
    have hkept : mkRat ((roundHalfEven (n * Nat.pow 2 k) (1 * Nat.pow 2 0) : Nat) * (Nat.pow 2 0 : Nat))
        (Nat.pow 2 k) = n := by
      have hp : Nat.pow 2 k ≠ 0 := (Nat.pow_pos (by omega)).ne'
      have hone : 1 * Nat.pow 2 0 = 1 := rfl
      rw [hone, roundHalfEven_one, Nat.cast_mul, mul_assoc]
      have hright := Rat.mkRat_mul_right (n := (n : Int)) (d := 1) hp
      simpa [Rat.mkRat_one] using hright
    rw [nearest, if_neg hnz]
    simp only [Rat.num_natCast, Rat.den_natCast, Int.natAbs_natCast, hk, Int.neg_neg, Int.toNat_natCast,
      Int.toNat_neg_natCast, hkept]
    have hlarge : 53 ≤ 1024 := by omega
    -- the exponent as a variable, lest the power is computed
    generalize 1024 = e at hlarge ⊢
    rw [if_neg (hsmall e hlarge), if_neg hneg]

lemma nearest_natCast_of_le {n : Nat} (h : n ≤ 2 ^ 53) : nearest n = finite n := by
  rcases Nat.lt_or_eq_of_le h with less | rfl
  · exact nearest_natCast less
  · decide +kernel

lemma two_pow_le_roundHalfEven {num k e : Nat} (h : num ≠ 0) (he : k + e ≤ num.log2) (f : Nat) :
    2 ^ k ≤ roundHalfEven (num * Nat.pow 2 f) (1 * Nat.pow 2 e) := by
  apply le_roundHalfEven (Nat.mul_pos Nat.one_pos (Nat.pow_pos Nat.two_pos))
  calc 2 ^ k * (1 * Nat.pow 2 e) = 2 ^ (k + e) := by rw [Nat.one_mul, Nat.pow_eq, Nat.pow_add]
    _ ≤ 2 ^ num.log2 := Nat.pow_le_pow_right Nat.two_pos he
    _ ≤ num := Nat.log2_self_le h
    _ ≤ num * Nat.pow 2 f := Nat.le_mul_of_pos_right _ (Nat.pow_pos Nat.two_pos)

lemma nearest_intCast {m : Int} (hm : m ≠ 0) : nearest m = infinite (m < 0) ∨
    ∃ k : Rat, 0 < k ∧ (2 ^ 53 ≤ m.natAbs → 2 ^ 53 ≤ k) ∧
    nearest m = finite (if m < 0 then -k else k) := by
  have hnum : m.natAbs ≠ 0 := Int.natAbs_ne_zero.mpr hm
  have hzero : (m : Rat) ≠ 0 := by exact_mod_cast hm
  have hneg : (m : Rat) < 0 ↔ m < 0 := by exact_mod_cast Iff.rfl
  have hplace := lastPlace_one hnum
  have hpow : ∀ k : Nat, 0 < Nat.pow 2 k := fun k => Nat.pow_pos Nat.two_pos
  obtain ⟨e, he⟩ : ∃ e : Nat, (lastPlace m.natAbs 1).toNat = e := ⟨_, rfl⟩
  obtain ⟨f, hf⟩ : ∃ f : Nat, (-lastPlace m.natAbs 1).toNat = f := ⟨_, rfl⟩
  rw [nearest, if_neg hzero]
  simp only [Rat.num_intCast, Rat.den_intCast, he, hf, hneg, Rat.mkRat_eq_div]
  split
  · exact .inl rfl
  · refine .inr ⟨_, ?_, fun large => ?_, rfl⟩
    · have hkept := two_pow_le_roundHalfEven hnum (show 0 + e ≤ m.natAbs.log2 by omega) f
      apply div_pos
      · exact_mod_cast Nat.mul_pos hkept (hpow e)
      · exact_mod_cast hpow f
    · have hlog : 53 ≤ m.natAbs.log2 := (Nat.le_log2 hnum).mpr large
      obtain rfl : f = 0 := by omega
      have hkept := two_pow_le_roundHalfEven hnum (show 52 + e ≤ m.natAbs.log2 by omega) 0
      have htwo : 2 ≤ Nat.pow 2 e := Nat.pow_le_pow_right Nat.two_pos (show 1 ≤ e by omega)
      have hall : 2 ^ 53 ≤ roundHalfEven (m.natAbs * Nat.pow 2 0) (1 * Nat.pow 2 e) * Nat.pow 2 e :=
        Nat.mul_le_mul hkept htwo
      have hone : ((Nat.pow 2 0 : Nat) : Rat) = 1 := rfl
      rw [hone, div_one]
      exact_mod_cast hall

lemma nearest_ne_natCast {m : Int} {n : Nat} (h : m < 0 ∨ 2 ^ 53 ≤ m ∧ n < 2 ^ 53) :
    nearest m ≠ finite n := by
  intro hn
  obtain hf | ⟨k, hpos, large, hk⟩ := nearest_intCast (show m ≠ 0 by omega)
  · rw [hf] at hn
    contradiction
  · have hv := Number.finite.inj (hk.symm.trans hn)
    rcases h with hneg | ⟨hm, hlt⟩
    · rw [if_pos hneg] at hv
      have hnat : (0 : Rat) ≤ n := by exact_mod_cast Nat.zero_le n
      linarith
    · rw [if_neg (by omega)] at hv
      have hge := large (by omega)
      have hnat : (n : Rat) < 2 ^ 53 := by exact_mod_cast hlt
      linarith

lemma spans_intCast {n : Int} {place stop : Nat} (h : place < 2 ^ 53) :
    spans (finite n) place stop = decide (place + n = stop) := by
  rw [spans, Bool.eq_iff_iff, Bool.or_eq_true, decide_eq_true_iff, beq_iff_eq, beq_iff_eq]
  have exact : ((place : Int) : Rat) = ((stop : Int) : Rat) - n ↔ place + n = stop := by
    rw [eq_sub_iff_add_eq]
    exact_mod_cast Iff.rfl
  rw [exact, or_iff_left_of_imp]
  intro hr
  have hm : ((stop : Int) : Rat) - n = ((stop - n : Int) : Rat) := by push_cast; rfl
  rw [hm] at hr
  by_cases hrange : (stop - n : Int) < 0 ∨ 2 ^ 53 ≤ (stop - n : Int) ∧ place < 2 ^ 53
  · exact absurd hr (nearest_ne_natCast hrange)
  · obtain ⟨d, hd⟩ := Int.eq_ofNat_of_zero_le (show 0 ≤ (stop - n : Int) by omega)
    rw [hd] at hr
    have hv := Number.finite.inj ((nearest_natCast (show d < 2 ^ 53 by omega)).symm.trans hr)
    have hdp : d = place := by exact_mod_cast hv
    omega

end Number

end Counterpart
