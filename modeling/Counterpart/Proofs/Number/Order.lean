import Counterpart.Proofs.Number.Rounding
import Mathlib.Algebra.Order.Field.Power
import Mathlib.Data.Rat.Cast.Order
import Mathlib.Tactic.Ring

/-! Rounding keeps the order of numbers, and takes those of a certain size on for infinite. -/

namespace Counterpart

namespace Number

lemma roundHalfEven_mono {num den num' den' : Nat} (hd : 0 < den) (hd' : 0 < den')
    (h : num * den' ≤ num' * den) : roundHalfEven num den ≤ roundHalfEven num' den' := by
  have quotients : num / den ≤ num' / den' := by
    rw [Nat.le_div_iff_mul_le hd']
    apply Nat.le_of_mul_le_mul_right _ hd
    calc num / den * den' * den = num / den * den * den' := Nat.mul_right_comm _ _ _
      _ ≤ num * den' := Nat.mul_le_mul_right _ (Nat.div_mul_le_self _ _)
      _ ≤ num' * den := h
  rw [roundHalfEven, roundHalfEven]
  rcases Nat.lt_or_eq_of_le quotients with less | same
  · split <;> split <;> omega
  · have remainders : 2 * (num % den) * den' ≤ 2 * (num' % den') * den := by
      rw [← Nat.div_add_mod num den, ← Nat.div_add_mod num' den', ← same] at h
      have shared : den * (num / den) * den' = den' * (num / den) * den := by ring
      rw [Nat.add_mul, Nat.add_mul, shared] at h
      rw [Nat.mul_assoc, Nat.mul_assoc]
      exact Nat.mul_le_mul_left 2 (Nat.le_of_add_le_add_left h)
    have down : 2 * (num' % den') < den' ∨ 2 * (num' % den') = den' ∧ num / den % 2 = 0 →
        2 * (num % den) < den ∨ 2 * (num % den) = den ∧ num / den % 2 = 0 := by
      rintro (less | ⟨half, even⟩)
      · left
        apply Nat.lt_of_mul_lt_mul_right (a := den')
        calc 2 * (num % den) * den' ≤ 2 * (num' % den') * den := remainders
          _ < den' * den := Nat.mul_lt_mul_of_pos_right less hd
          _ = den * den' := Nat.mul_comm _ _
      · rw [half, Nat.mul_comm den'] at remainders
        rcases Nat.lt_or_eq_of_le (Nat.le_of_mul_le_mul_right remainders hd') with less | half
        · exact .inl less
        · exact .inr ⟨half, even⟩
    simp only [← same, Bool.or_eq_true, Bool.and_eq_true, decide_eq_true_iff, beq_iff_eq]
    split
    · split <;> omega
    · next up =>
      rw [if_neg (mt down up)]

lemma roundHalfEven_le {num den num' den' : Nat} (hd : 0 < den) (hd' : 0 < den')
    (h : (num : Rat) / den ≤ num' / den') : roundHalfEven num den ≤ roundHalfEven num' den' := by
  rw [div_le_div_iff₀ (Nat.cast_pos.mpr hd) (Nat.cast_pos.mpr hd')] at h
  exact roundHalfEven_mono hd hd' (by exact_mod_cast h)

lemma two_zpow_eq (z : Int) : (2 : Rat) ^ z = (Nat.pow 2 z.toNat : Nat) / (Nat.pow 2 (-z).toNat : Nat) := by
  obtain ⟨n, rfl | rfl⟩ := z.eq_nat_or_neg
  · simp
  · simp

lemma div_lt_two_zpow_iff {num den : Nat} (hd : den ≠ 0) (z : Int) :
    (num : Rat) / den < 2 ^ z ↔ num * Nat.pow 2 (-z).toNat < den * Nat.pow 2 z.toNat := by
  have hden : (0 : Rat) < den := by exact_mod_cast Nat.pos_of_ne_zero hd
  have hpow : (0 : Rat) < (Nat.pow 2 (-z).toNat : Nat) := by exact_mod_cast Nat.pow_pos Nat.two_pos
  rw [two_zpow_eq, div_lt_div_iff₀ hden hpow, mul_comm ((Nat.pow 2 z.toNat : Nat) : Rat)]
  exact_mod_cast Iff.rfl

lemma floorLog2_bounds {num den : Nat} (hn : num ≠ 0) (hd : den ≠ 0) :
    (2 : Rat) ^ floorLog2 num den ≤ num / den ∧ (num : Rat) / den < 2 ^ (floorLog2 num den + 1) := by
  have hden : (0 : Rat) < den := by exact_mod_cast Nat.pos_of_ne_zero hd
  have num_low : (2 : Rat) ^ (num.log2 : Int) ≤ num := by exact_mod_cast Nat.log2_self_le hn
  have num_high : (num : Rat) < 2 ^ (num.log2 + 1 : Int) := by exact_mod_cast Nat.lt_log2_self
  have den_low : (2 : Rat) ^ (den.log2 : Int) ≤ den := by exact_mod_cast Nat.log2_self_le hd
  have den_high : (den : Rat) < 2 ^ (den.log2 + 1 : Int) := by exact_mod_cast Nat.lt_log2_self
  obtain ⟨guess, hg⟩ : ∃ guess : Int, (num.log2 : Int) - den.log2 = guess := ⟨_, rfl⟩
  have low : (2 : Rat) ^ (guess - 1) ≤ num / den := by
    rw [le_div_iff₀ hden]
    calc (2 : Rat) ^ (guess - 1) * den ≤ 2 ^ (guess - 1) * 2 ^ (den.log2 + 1 : Int) := by gcongr
      _ = 2 ^ (num.log2 : Int) := by
        rw [← zpow_add₀ two_ne_zero]
        congr 1
        omega
      _ ≤ num := num_low
  have high : (num : Rat) / den < 2 ^ (guess + 1) := by
    rw [div_lt_iff₀ hden]
    calc (num : Rat) < 2 ^ (num.log2 + 1 : Int) := num_high
      _ = 2 ^ (guess + 1) * 2 ^ (den.log2 : Int) := by
        rw [← zpow_add₀ two_ne_zero]
        congr 1
        omega
      _ ≤ 2 ^ (guess + 1) * den := by gcongr
  rw [floorLog2, hg]
  split
  · next less =>
    rw [Int.sub_add_cancel]
    exact ⟨low, (div_lt_two_zpow_iff hd guess).mpr less⟩
  · next more =>
    exact ⟨not_lt.mp (mt (div_lt_two_zpow_iff hd guess).mp more), high⟩

def place (x : Rat) : Int := lastPlace x.num.natAbs x.den

def kept (x : Rat) : Nat :=
  roundHalfEven (x.num.natAbs * Nat.pow 2 (-place x).toNat) (x.den * Nat.pow 2 (place x).toNat)

def rounded (x : Rat) : Rat := kept x * 2 ^ place x

section

variable {x y : Rat}

lemma natAbs_div_den (hx : 0 ≤ x) : (x.num.natAbs : Rat) / x.den = x := by
  rw [Nat.cast_natAbs, abs_of_nonneg (Rat.num_nonneg.mpr hx), Rat.num_div_den]

lemma nearest_of_pos (hx : 0 < x) :
    nearest x = if ((Nat.pow 2 1024 : Nat) : Rat) ≤ rounded x then infinite false else finite (rounded x) := by
  have hneg : ¬ x < 0 := not_lt.mpr hx.le
  have hvalue : rounded x = mkRat (kept x * (Nat.pow 2 (place x).toNat : Nat)) (Nat.pow 2 (-place x).toNat) := by
    rw [rounded, two_zpow_eq, Rat.mkRat_eq_div]
    push_cast
    rw [mul_div_assoc]
  rw [nearest, if_neg hx.ne', hvalue, kept, place]
  -- the exponent as a variable, lest the power is computed
  generalize 1024 = e
  simp only [hneg, decide_false, if_false]

lemma scaled_eq (hx : 0 ≤ x) : ((x.num.natAbs * Nat.pow 2 (-place x).toNat : Nat) : Rat) /
    (x.den * Nat.pow 2 (place x).toNat : Nat) = x / 2 ^ place x := by
  rw [two_zpow_eq, Nat.cast_mul, Nat.cast_mul, div_div_eq_mul_div, mul_div_mul_comm, natAbs_div_den hx,
    mul_div_assoc]

lemma scale_pos : 0 < x.den * Nat.pow 2 (place x).toNat := Nat.mul_pos x.den_pos (Nat.pow_pos Nat.two_pos)

lemma kept_le_kept (hx : 0 ≤ x) (hy : 0 ≤ y) (h : x / 2 ^ place x ≤ y / 2 ^ place y) :
    kept x ≤ kept y := by
  rw [← scaled_eq hx, ← scaled_eq hy] at h
  exact roundHalfEven_le scale_pos scale_pos h

lemma kept_le (hx : 0 ≤ x) {k : Nat} (h : x ≤ k * 2 ^ place x) : kept x ≤ k := by
  rw [← div_le_iff₀ (zpow_pos two_pos _), ← scaled_eq hx, ← div_one (k : Rat), ← Nat.cast_one] at h
  calc kept x ≤ roundHalfEven k 1 := roundHalfEven_le scale_pos Nat.one_pos h
    _ = k := roundHalfEven_one k

lemma le_kept (hx : 0 ≤ x) {k : Nat} (h : k * 2 ^ place x ≤ x) : k ≤ kept x := by
  rw [← le_div_iff₀ (zpow_pos two_pos _), ← scaled_eq hx, ← div_one (k : Rat), ← Nat.cast_one] at h
  calc k = roundHalfEven k 1 := (roundHalfEven_one k).symm
    _ ≤ kept x := roundHalfEven_le Nat.one_pos scale_pos h

lemma two_zpow_eq_mul {z : Int} (hz : place x ≤ z) :
    (2 : Rat) ^ z = (2 ^ (z - place x).toNat : Nat) * 2 ^ place x := by
  rw [Nat.cast_pow, Nat.cast_two, ← zpow_natCast, ← zpow_add₀ two_ne_zero]
  congr 1
  omega

lemma rounded_le_two_zpow (hx : 0 ≤ x) {z : Int} (hz : place x ≤ z) (h : x ≤ 2 ^ z) :
    rounded x ≤ 2 ^ z := by
  rw [two_zpow_eq_mul hz] at h ⊢
  exact mul_le_mul_of_nonneg_right (Nat.cast_le.mpr (kept_le hx h)) (zpow_pos two_pos _).le

lemma two_zpow_le_rounded (hx : 0 ≤ x) {z : Int} (hz : place x ≤ z) (h : 2 ^ z ≤ x) :
    2 ^ z ≤ rounded x := by
  rw [two_zpow_eq_mul hz] at h ⊢
  exact mul_le_mul_of_nonneg_right (Nat.cast_le.mpr (le_kept hx h)) (zpow_pos two_pos _).le

lemma rounded_nonneg : 0 ≤ rounded x := mul_nonneg (Nat.cast_nonneg _) (zpow_pos two_pos _).le

lemma exponent_bounds (hx : 0 < x) :
    ∃ z : Int, place x = max (z - 52) (-1074) ∧ 2 ^ z ≤ x ∧ x < 2 ^ (z + 1) := by
  have hn : x.num.natAbs ≠ 0 := Int.natAbs_ne_zero.mpr (Rat.num_ne_zero.mpr hx.ne')
  have bounds := floorLog2_bounds hn x.den_nz
  rw [natAbs_div_den hx.le] at bounds
  exact ⟨_, rfl, bounds⟩

lemma rounded_mono (hx : 0 < x) (h : x ≤ y) : rounded x ≤ rounded y := by
  have hy : 0 < y := lt_of_lt_of_le hx h
  obtain ⟨z, place_x, low_x, high_x⟩ := exponent_bounds hx
  obtain ⟨w, place_y, low_y, high_y⟩ := exponent_bounds hy
  have exponents : z ≤ w :=
    Int.lt_add_one_iff.mp ((zpow_lt_zpow_iff_right₀ one_lt_two).mp (lt_of_le_of_lt (low_x.trans h) high_y))
  rcases eq_or_lt_of_le (show place x ≤ place y by omega) with same | less
  · have kept_le : kept x ≤ kept y := by
      apply kept_le_kept hx.le hy.le
      rw [same]
      exact div_le_div_of_nonneg_right h (zpow_pos two_pos _).le
    rw [rounded, rounded, same]
    exact mul_le_mul_of_nonneg_right (Nat.cast_le.mpr kept_le) (zpow_pos two_pos _).le
  · -- The place moves with the exponent, so that a power of two lies between the two.
    have apart : z + 1 ≤ w := by omega
    calc rounded x ≤ 2 ^ w :=
          rounded_le_two_zpow hx.le (by omega) (high_x.le.trans (zpow_le_zpow_right₀ one_le_two apart))
      _ ≤ rounded y := two_zpow_le_rounded hy.le (by omega) low_y

lemma nearest_nonneg {w : Rat} (hx : 0 ≤ x) (h : nearest x = finite w) : 0 ≤ w := by
  rcases eq_or_lt_of_le hx with rfl | hx
  · exact (finite.inj h).le
  · rw [nearest_of_pos hx] at h
    split at h
    · contradiction
    · rw [← finite.inj h]
      exact rounded_nonneg

lemma exists_nearest_le {w : Rat} (hx : 0 ≤ x) (h : x ≤ y) (hy : nearest y = finite w) :
    ∃ v, nearest x = finite v ∧ 0 ≤ v ∧ v ≤ w := by
  rcases eq_or_lt_of_le hx with rfl | hx
  · exact ⟨0, rfl, le_rfl, nearest_nonneg h hy⟩
  · rw [nearest_of_pos (lt_of_lt_of_le hx h)] at hy
    rw [nearest_of_pos hx]
    have monotone := rounded_mono hx h
    split at hy
    · contradiction
    · next small =>
      rw [if_neg (fun large => small (large.trans monotone))]
      exact ⟨_, rfl, rounded_nonneg, monotone.trans (finite.inj hy).le⟩

lemma nearest_infinite_or_finite (hx : 0 ≤ x) :
    nearest x = infinite false ∨ ∃ v, nearest x = finite v ∧ 0 ≤ v := by
  rcases eq_or_lt_of_le hx with rfl | hx
  · exact .inr ⟨0, rfl, le_rfl⟩
  · rw [nearest_of_pos hx]
    split
    · exact .inl rfl
    · exact .inr ⟨_, rfl, rounded_nonneg⟩

lemma nearest_of_nonpos (hx : x ≤ 0) :
    nearest x = infinite true ∨ ∃ v, nearest x = finite v ∧ v ≤ 0 := by
  rcases eq_or_lt_of_le hx with rfl | hx
  · exact .inr ⟨0, rfl, le_rfl⟩
  · rw [nearest, if_neg hx.ne]
    generalize 1024 = e
    simp only [hx, decide_true, if_true]
    split
    · exact .inl rfl
    · refine .inr ⟨_, rfl, neg_nonpos.mpr ?_⟩
      rw [Rat.mkRat_eq_div]
      exact div_nonneg (by exact_mod_cast Nat.zero_le _) (by exact_mod_cast Nat.zero_le _)

end

def overflow : Nat := Nat.pow 2 1024 - Nat.pow 2 970

lemma nearest_overflow : nearest overflow = infinite false := by decide +kernel

lemma isFinite_nearest_before_overflow : (nearest (overflow - 1 : Nat)).isFinite = true := by decide +kernel

lemma nearest_of_overflow {n : Nat} (h : overflow ≤ n) : nearest n = infinite false := by
  rcases nearest_infinite_or_finite (Nat.cast_nonneg n) with infinite | ⟨w, finite, -⟩
  · exact infinite
  · obtain ⟨v, hv, -⟩ := exists_nearest_le (Nat.cast_nonneg _) (Nat.cast_le.mpr h) finite
    rw [nearest_overflow] at hv
    contradiction

lemma exists_nearest_of_lt {n : Nat} (h : n < overflow) : ∃ v, nearest n = finite v ∧ 0 ≤ v := by
  have greatest := isFinite_nearest_before_overflow
  rcases nearest_infinite_or_finite (Nat.cast_nonneg (overflow - 1)) with infinite | ⟨w, hw, -⟩
  · rw [infinite] at greatest
    exact absurd greatest Bool.false_ne_true
  · obtain ⟨v, hv, nonneg, -⟩ :=
      exists_nearest_le (Nat.cast_nonneg n) (Nat.cast_le.mpr (Nat.le_sub_one_of_lt h)) hw
    exact ⟨v, hv, nonneg⟩

end Number

end Counterpart
