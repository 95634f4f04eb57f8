import Counterpart.Motion
import Counterpart.Proofs.Number.Order

/-!
The offset at a percentage: it grows with the percentage and with the size, and as long as binary64 holds every
offset it falls at most 99 short of the exact one.
-/

namespace Counterpart

namespace Number

lemma whole_mono {a b : Rat} (h : a ≤ b) : (finite a).whole ≤ (finite b).whole := by
  rw [whole, whole]
  split
  · next negative =>
    split
    · exact Rat.ceil_le_iff.mpr (h.trans Rat.le_ceil)
    · next nonneg =>
      calc a.ceil ≤ 0 := Rat.ceil_le_iff.mpr negative.le
        _ ≤ b.floor := Rat.le_floor_iff.mpr (not_lt.mp nonneg)
  · next nonneg =>
    rw [if_neg (not_lt.mpr ((not_lt.mp nonneg).trans h))]
    exact Rat.floor_monotone h

lemma whole_nonneg {a : Rat} (h : 0 ≤ a) : 0 ≤ (finite a).whole := whole_mono h

lemma clampTo_le (size : Nat) (n : Number) : n.clampTo size ≤ size := by
  cases n with
  | nan => exact Nat.zero_le _
  | infinite negative => cases negative <;> simp [clampTo]
  | finite value => exact Nat.min_le_right _ _

lemma clampTo_finite_mono {a b : Rat} {s t : Nat} (h : a ≤ b) (hs : s ≤ t) :
    (finite a).clampTo s ≤ (finite b).clampTo t := by
  have floors := Rat.floor_monotone h
  simp only [clampTo]
  omega

lemma clampTo_nearest_of_nonpos {x : Rat} (h : x ≤ 0) (size : Nat) : (nearest x).clampTo size = 0 := by
  rcases nearest_of_nonpos h with infinite | ⟨v, finite, nonpos⟩
  · rw [infinite]
    rfl
  · have floor : v.floor ≤ 0 := by
      calc v.floor ≤ (0 : Rat).floor := Rat.floor_monotone nonpos
        _ = 0 := rfl
    rw [finite, clampTo, Int.toNat_of_nonpos floor, Nat.zero_min]

lemma clampTo_nearest_mono {x y : Rat} {s t : Nat} (h : x ≤ y) (hs : s ≤ t) :
    (nearest x).clampTo s ≤ (nearest y).clampTo t := by
  rcases le_total x 0 with hx | hx
  · rw [clampTo_nearest_of_nonpos hx]
    exact Nat.zero_le _
  · rcases nearest_infinite_or_finite (hx.trans h) with infinite | ⟨w, finite, -⟩
    · rw [infinite]
      exact Nat.le_trans (clampTo_le s _) hs
    · obtain ⟨v, hv, -, hvw⟩ := exists_nearest_le hx h finite
      rw [hv, finite]
      exact clampTo_finite_mono hvw hs

lemma le_clampTo_nearest {m size : Nat} {x : Rat} (exact : m ≤ exactThreshold) (hx : m ≤ x) (hs : m ≤ size) :
    m ≤ (nearest x).clampTo size := by
  have floor : (m : Rat).floor = m := Rat.floor_intCast m
  calc m = (finite m).clampTo m := by rw [clampTo, floor, Int.toNat_natCast, Nat.min_self]
    _ = (nearest m).clampTo m := by rw [nearest_natCast_of_le exact]
    _ ≤ (nearest x).clampTo size := clampTo_nearest_mono hx hs

def hundredth (size : Nat) : Int := (nearest ((size : Rat) / 100)).whole

lemma hundredth_exactThreshold : hundredth exactThreshold = (exactThreshold / 100 : Nat) := by decide +kernel

lemma hundredth_nonneg (size : Nat) : 0 ≤ hundredth size := by
  have nonneg : (0 : Rat) ≤ (size : Rat) / 100 := div_nonneg (Nat.cast_nonneg _) (by decide)
  rcases nearest_infinite_or_finite nonneg with infinite | ⟨w, finite, hw⟩
  · rw [hundredth, infinite]
    rfl
  · rw [hundredth, finite]
    exact whole_nonneg hw

lemma hundredth_mono {s t : Nat} (h : s ≤ t) (ht : t < overflow) : hundredth s ≤ hundredth t := by
  have hst : (s : Rat) ≤ t := Nat.cast_le.mpr h
  have hs : (0 : Rat) ≤ s := Nat.cast_nonneg _
  obtain ⟨u, hu, -⟩ := exists_nearest_of_lt ht
  obtain ⟨w, hw, -⟩ := exists_nearest_le (x := (t : Rat) / 100) (by linarith) (by linarith) hu
  obtain ⟨v, hv, -, hvw⟩ := exists_nearest_le (x := (s : Rat) / 100) (by linarith) (by linarith) hw
  rw [hundredth, hundredth, hv, hw]
  exact whole_mono hvw

end Number

def exactOffset (size : Nat) (percent : Int) : Nat := min ((percent * size).fdiv 100).toNat size

lemma percentageOffset_le (size : Nat) (percent : Number) : percentageOffset size percent ≤ size := by
  rw [percentageOffset]
  split
  · exact Nat.min_le_right _ _
  · exact Number.clampTo_le size _

lemma fdiv_hundred_mono {m n : Int} (h : m ≤ n) : m.fdiv 100 ≤ n.fdiv 100 := by
  rw [Int.fdiv_eq_ediv_of_nonneg m (by decide), Int.fdiv_eq_ediv_of_nonneg n (by decide)]
  exact Int.ediv_le_ediv (by decide) h

lemma exactShare_mono_percent {p q : Int} (h : p ≤ q) (size : Nat) :
    exactShare size p ≤ exactShare size q := by
  rw [exactShare, exactShare]
  split
  · exact Int.mul_le_mul_of_nonneg_right h (Int.natCast_nonneg _)
  · exact fdiv_hundred_mono (Int.mul_le_mul_of_nonneg_right h (Int.natCast_nonneg _))

lemma roundedShare_eq (size : Nat) (percent : Int) :
    roundedShare size percent = .nearest ((percent * Number.hundredth size : Int) : Rat) := by
  rw [roundedShare, Number.hundredth]
  push_cast
  rfl

lemma percentageOffset_mono_percent {m n : Number} (h : m.whole ≤ n.whole) (size : Nat) :
    percentageOffset size m ≤ percentageOffset size n := by
  rw [percentageOffset, percentageOffset]
  split
  · have shares := exactShare_mono_percent h size
    omega
  · rw [roundedShare_eq, roundedShare_eq]
    apply Number.clampTo_nearest_mono _ (Nat.le_refl size)
    exact Int.cast_le.mpr (Int.mul_le_mul_of_nonneg_right h (Number.hundredth_nonneg size))

lemma percentageOffset_of_whole_eq_zero {percent : Number} (h : percent.whole = 0) (size : Nat) :
    percentageOffset size percent = 0 := by
  rw [percentageOffset, h]
  split
  · simp [exactShare]
  · rw [roundedShare_eq, Int.zero_mul]
    exact Number.clampTo_nearest_of_nonpos le_rfl size

lemma percentageOffset_of_nonpos {percent : Number} (h : percent.whole ≤ 0) (size : Nat) :
    percentageOffset size percent = 0 := by
  apply Nat.le_zero.mp
  calc percentageOffset size percent ≤ percentageOffset size 0 := percentageOffset_mono_percent h size
    _ = 0 := percentageOffset_of_whole_eq_zero rfl size

lemma exactOffset_of_nonpos {percent : Int} (h : percent ≤ 0) (size : Nat) : exactOffset size percent = 0 := by
  have share : (percent * size).fdiv 100 ≤ (0 : Int).fdiv 100 :=
    fdiv_hundred_mono (Int.mul_nonpos_of_nonpos_of_nonneg h (Int.natCast_nonneg _))
  rw [Int.zero_fdiv] at share
  rw [exactOffset, Int.toNat_of_nonpos share, Nat.zero_min]

def naturalShare (size p : Nat) : Nat := if coarseThreshold < size then p * (size / 100) else p * size / 100

lemma fdiv_hundred_natCast (p size : Nat) : ((p : Int) * size).fdiv 100 = (p * size / 100 : Nat) := by
  rw [Int.fdiv_eq_ediv_of_nonneg _ (by decide)]
  norm_cast

lemma exactShare_natCast (size p : Nat) : exactShare size p = naturalShare size p := by
  rw [exactShare, naturalShare]
  split
  · norm_cast
  · exact fdiv_hundred_natCast p size

lemma exactOffset_natCast (size p : Nat) : exactOffset size p = min (p * size / 100) size := by
  rw [exactOffset, fdiv_hundred_natCast, Int.toNat_natCast]

lemma naturalShare_mono {s t : Nat} (h : s ≤ t) (p : Nat) : naturalShare s p ≤ naturalShare t p := by
  have hundredths : p * (s / 100) ≤ p * (t / 100) := Nat.mul_le_mul_left p (Nat.div_le_div_right h)
  have shares : p * s / 100 ≤ p * t / 100 := Nat.div_le_div_right (Nat.mul_le_mul_left p h)
  rw [naturalShare, naturalShare]
  split
  · next coarse =>
    rw [if_pos (Nat.lt_of_lt_of_le coarse h)]
    exact hundredths
  · next fine =>
    split
    · next coarse =>
      rw [Nat.not_lt] at fine
      calc p * s / 100 ≤ p * coarseThreshold / 100 := Nat.div_le_div_right (Nat.mul_le_mul_left p fine)
        _ = p * (coarseThreshold / 100) := Nat.mul_div_assoc p (by decide)
        _ ≤ p * (t / 100) := Nat.mul_le_mul_left p (Nat.div_le_div_right (Nat.le_of_lt coarse))
    · exact shares

lemma mul_div_hundred (p size : Nat) : p * size / 100 = p * (size / 100) + p * (size % 100) / 100 := by
  have parts : p * size = 100 * (p * (size / 100)) + p * (size % 100) := by
    rw [← Nat.mul_assoc, Nat.mul_comm 100 p, Nat.mul_assoc, ← Nat.mul_add, Nat.div_add_mod]
  rw [parts, Nat.mul_add_div (by decide)]

lemma le_mul_hundredth {size p : Nat} (coarse : coarseThreshold < size) (hp : 100 < p) :
    size ≤ p * (size / 100) := by
  have large : 80000 < size := coarse
  calc size ≤ 101 * (size / 100) := by omega
    _ ≤ p * (size / 100) := Nat.mul_le_mul_right _ hp

lemma naturalShare_bounds (size p : Nat) : min (naturalShare size p) size ≤ min (p * size / 100) size ∧
    min (p * size / 100) size ≤ min (naturalShare size p) size + 99 ∧
    (size ≤ coarseThreshold ∨ 100 ∣ size →
      min (naturalShare size p) size = min (p * size / 100) size) := by
  rw [naturalShare]
  split
  · next coarse =>
    have parts := mul_div_hundred p size
    have all : 100 ∣ size → p * (size % 100) / 100 = 0 := by
      intro h
      rw [Nat.mod_eq_zero_of_dvd h, Nat.mul_zero]
    by_cases hp : p ≤ 100
    · have rest : p * (size % 100) ≤ 100 * 99 :=
        Nat.mul_le_mul hp (Nat.le_of_lt_succ (Nat.mod_lt _ (by decide)))
      omega
    · have share := le_mul_hundredth coarse (Nat.lt_of_not_le hp)
      omega
  · exact ⟨Nat.le_refl _, Nat.le_add_right _ _, fun _ => rfl⟩

lemma percentageOffset_natural {percent : Number} {p : Nat} (natural : percent.whole = p) {size : Nat}
    (exact : size ≤ exactThreshold) : percentageOffset size percent = min (naturalShare size p) size := by
  rw [percentageOffset, if_pos exact, natural, exactShare_natCast, Int.toNat_natCast]

lemma percentageOffset_bounds (percent : Number) {size : Nat} (exact : size ≤ exactThreshold) :
    percentageOffset size percent ≤ exactOffset size percent.whole ∧
    exactOffset size percent.whole ≤ percentageOffset size percent + 99 ∧
    (size ≤ coarseThreshold ∨ 100 ∣ size →
      percentageOffset size percent = exactOffset size percent.whole) := by
  rcases le_total percent.whole 0 with nonpos | nonneg
  · rw [percentageOffset_of_nonpos nonpos, exactOffset_of_nonpos nonpos]
    exact ⟨Nat.le_refl _, Nat.le_add_right _ _, fun _ => rfl⟩
  · obtain ⟨p, natural⟩ := Int.eq_ofNat_of_zero_le nonneg
    rw [percentageOffset_natural natural exact, natural, exactOffset_natCast]
    exact naturalShare_bounds size p

section

variable {s t p : Nat} {percent : Number} (natural : percent.whole = p)
include natural

lemma percentageOffset_mono_exact (h : s ≤ t) (exact : t ≤ exactThreshold) :
    percentageOffset s percent ≤ percentageOffset t percent := by
  rw [percentageOffset_natural natural (Nat.le_trans h exact), percentageOffset_natural natural exact]
  have shares := naturalShare_mono h p
  omega

lemma percentageOffset_rounded (rounds : exactThreshold < t) : percentageOffset t percent =
    (Number.nearest ((p * Number.hundredth t : Int) : Rat)).clampTo t := by
  rw [percentageOffset, if_neg (Nat.not_le.mpr rounds), natural, roundedShare_eq]

lemma percentageOffset_exactThreshold_le (rounds : exactThreshold < t) (ht : t < Number.overflow) :
    percentageOffset exactThreshold percent ≤ percentageOffset t percent := by
  have size := percentageOffset_le exactThreshold percent
  rw [percentageOffset_rounded natural rounds]
  apply Number.le_clampTo_nearest size _ (Nat.le_trans size (Nat.le_of_lt rounds))
  have coarse : coarseThreshold < exactThreshold := by decide
  have share : percentageOffset exactThreshold percent ≤ p * (exactThreshold / 100) := by
    rw [percentageOffset_natural natural (Nat.le_refl _), naturalShare, if_pos coarse]
    exact Nat.min_le_left _ _
  have hundredths : ((exactThreshold / 100 : Nat) : Int) ≤ Number.hundredth t := by
    rw [← Number.hundredth_exactThreshold]
    exact Number.hundredth_mono (Nat.le_of_lt rounds) ht
  have bound : (percentageOffset exactThreshold percent : Int) ≤ p * Number.hundredth t := by
    calc (percentageOffset exactThreshold percent : Int)
      _ ≤ p * (exactThreshold / 100 : Nat) := by exact_mod_cast share
      _ ≤ p * Number.hundredth t := Int.mul_le_mul_of_nonneg_left hundredths (Int.natCast_nonneg p)
  exact_mod_cast bound

end

lemma percentageOffset_mono_size {s t : Nat} (h : s ≤ t) (ht : t < Number.overflow) (percent : Number) :
    percentageOffset s percent ≤ percentageOffset t percent := by
  rcases le_total percent.whole 0 with nonpos | nonneg
  · rw [percentageOffset_of_nonpos nonpos]
    exact Nat.zero_le _
  · obtain ⟨p, natural⟩ := Int.eq_ofNat_of_zero_le nonneg
    rcases Nat.lt_or_ge exactThreshold t with rounds_t | exact_t
    · rcases Nat.lt_or_ge exactThreshold s with rounds_s | exact_s
      · rw [percentageOffset_rounded natural rounds_s, percentageOffset_rounded natural rounds_t]
        apply Number.clampTo_nearest_mono _ h
        exact Int.cast_le.mpr (Int.mul_le_mul_of_nonneg_left (Number.hundredth_mono h ht) (Int.natCast_nonneg p))
      · calc percentageOffset s percent ≤ percentageOffset exactThreshold percent :=
              percentageOffset_mono_exact natural exact_s (Nat.le_refl _)
          _ ≤ percentageOffset t percent := percentageOffset_exactThreshold_le natural rounds_t ht
    · exact percentageOffset_mono_exact natural h exact_t

end Counterpart
