/-
**Units of measurement.**

A quantity can be measured in another unit and from another origin: a temperature in degrees of
another scale, a duration in minutes instead of seconds.  In exact arithmetic, the mean and the
quantiles of a sample change as its values do, differences and deviations change by the factor
between the units, and variances by its square.  What is a ratio of such quantities does not change,
and neither does what is read off the order of the values: scores of skewness and kurtosis, and
outliers.

Main definitions:

* `StudyAnalysis.Exact.UnitChange` — another unit and another origin of a scale.

Main results:

* `StudyAnalysis.Exact.mean_map_unit`, `StudyAnalysis.Exact.quantile_map_unit` — positions change as
  values do;
* `StudyAnalysis.Exact.variance_map_unit` — spreads change by the factor;
* `StudyAnalysis.Exact.skewTest_map_unit`, `StudyAnalysis.Exact.normalTest_map_unit` — **the tests
  of symmetry and of normality do not depend on the unit**;
* `StudyAnalysis.Exact.tukeyOutliers_map_unit` — outliers stay outliers.
-/

import StudyAnalysis.Proofs.Statistics.Quantiles
import StudyAnalysis.Proofs.Statistics.Shape

set_option autoImplicit false
set_option relaxedAutoImplicit false

namespace StudyAnalysis.Exact

open Numeric Fallible

/-! ### Changes of unit -/

/-- Another unit and another origin of a scale: the value that measures what is measured as `y` is
`factor * y + shift`. -/
structure UnitChange where
  factor : ℝ
  shift : ℝ
  factor_pos : 0 < factor

namespace UnitChange

/-- The new measure of what is measured as `y`. -/
def measure (k : UnitChange) (y : ℝ) : ℝ :=
  k.factor * y + k.shift

/-- The unit and the origin stay. -/
def unchanged : UnitChange :=
  ⟨1, 0, one_pos⟩

/-- What a change of the unit does to differences, for which the origin does not matter. -/
def ofDifferences (k : UnitChange) : UnitChange :=
  ⟨k.factor, 0, k.factor_pos⟩

variable (k : UnitChange) {x y : ℝ}

@[simp] theorem measure_unchanged (y : ℝ) : unchanged.measure y = y := by
  simp [measure, unchanged]

theorem measure_ofDifferences (y : ℝ) : k.ofDifferences.measure y = k.factor * y := by
  simp [measure, ofDifferences]

theorem measure_sub (x y : ℝ) : k.measure x - k.measure y = k.factor * (x - y) := by
  rw [measure, measure]
  ring

theorem strictMono_measure : StrictMono k.measure := by
  intro x y h
  have := mul_lt_mul_of_pos_left h k.factor_pos
  exact add_lt_add_left this k.shift

@[simp] theorem measure_lt_iff : k.measure x < k.measure y ↔ x < y :=
  k.strictMono_measure.lt_iff_lt

@[simp] theorem measure_le_iff : k.measure x ≤ k.measure y ↔ x ≤ y :=
  k.strictMono_measure.le_iff_le

@[simp] theorem measure_inj : k.measure x = k.measure y ↔ x = y :=
  k.strictMono_measure.injective.eq_iff

@[simp] theorem measure_beq (x y : ℝ) : (k.measure x == k.measure y) = (x == y) := by
  rw [Bool.eq_iff_iff, beq_iff_eq, beq_iff_eq, measure_inj]

/-- A multiple by the factor is positive, negative or zero as the number is. -/
@[simp] theorem factor_mul_nonpos : k.factor * x ≤ 0 ↔ x ≤ 0 :=
  mul_nonpos_iff_pos_imp_nonpos.trans
    ⟨fun h => h.1 k.factor_pos, fun h => ⟨fun _ => h, fun _ => k.factor_pos.le⟩⟩

theorem square_factor_pos : 0 < square k.factor :=
  mul_pos k.factor_pos k.factor_pos

theorem square_measure_sub (x y : ℝ) :
    square (k.measure x - k.measure y) = square k.factor * square (x - y) := by
  rw [k.measure_sub, square_eq, square_eq, square_eq]
  ring

end UnitChange

variable (k : UnitChange) {xs ys : List ℝ}

/-! ### Moments -/

/-- **A mean is measured as the values are.** -/
theorem mean_map_unit (h : xs ≠ []) : mean (xs.map k.measure) = k.measure (mean xs) :=
  mean_map_affine k.factor k.shift h

/-- The origin does not matter for a difference of means. -/
theorem mean_sub_mean_map_unit (hx : xs ≠ []) (hy : ys ≠ []) :
    mean (xs.map k.measure) - mean (ys.map k.measure) = k.factor * (mean xs - mean ys) := by
  rw [mean_map_unit k hx, mean_map_unit k hy, k.measure_sub]

/-- **A variance changes by the square of the factor.** -/
theorem variance_map_unit (xs : List ℝ) :
    variance (xs.map k.measure) = square k.factor * variance xs :=
  variance_map_affine k.factor k.shift xs

/-- A sample varies in every unit or in none. -/
theorem varyingMoments_map_unit (xs : List ℝ) : varyingMoments (xs.map k.measure) =
    (varyingMoments xs).map fun m =>
      ⟨k.factor ^ 2 * m.m2, k.factor ^ 3 * m.m3, k.factor ^ 4 * m.m4⟩ := by
  have hpos : 0 < k.factor ^ 2 := pow_pos k.factor_pos 2
  have hmoments : centralMoments (xs.map k.measure) = _ :=
    centralMoments_map_affine k.factor k.shift xs
  have hvaries : k.factor ^ 2 * (centralMoments xs).m2 ≤ 0 ↔ (centralMoments xs).m2 ≤ 0 := by
    constructor <;> intro h <;> nlinarith
  rw [varyingMoments_eq, varyingMoments_eq, hmoments]
  simp only [hvaries]
  split <;> rfl

theorem pos_of_varyingMoments {m : CentralMoments ℝ} (h : varyingMoments xs = .ok m) :
    0 < m.m2 := by
  rw [varyingMoments_eq] at h
  split at h
  · cases h
  · obtain rfl := Except.ok.inj h
    exact not_le.1 ‹_›

/-! ### Skewness and kurtosis -/

/-- The skewness is a ratio of quantities of the third power. -/
theorem skewness_map_unit (n : ℝ) {m : CentralMoments ℝ} (hm : 0 < m.m2) :
    skewness n ⟨k.factor ^ 2 * m.m2, k.factor ^ 3 * m.m3, k.factor ^ 4 * m.m4⟩ = skewness n m := by
  have hpower : (k.factor ^ 2 * m.m2) ^ (3 / 2 : ℝ) = k.factor ^ 3 * m.m2 ^ (3 / 2 : ℝ) := by
    rw [Real.mul_rpow (by positivity) hm.le, ← Real.rpow_natCast, ← Real.rpow_natCast,
      ← Real.rpow_mul k.factor_pos.le]
    norm_num
  rw [skewness, skewness, hpower, mul_div_mul_left _ _ (pow_pos k.factor_pos 3).ne']

theorem skewScore_map_unit (xs : List ℝ) : skewScore (xs.map k.measure) = skewScore xs := by
  rw [skewScore_eq, skewScore_eq, varyingMoments_map_unit, List.length_map]
  cases hm : varyingMoments xs with
  | error err => rfl
  | ok m =>
      refine congrArg Except.ok ?_
      dsimp only
      rw [skewness_map_unit k _ (pos_of_varyingMoments hm)]

/-- The kurtosis is a ratio of quantities of the fourth power. -/
theorem kurtosisScore_map_unit (xs : List ℝ) :
    kurtosisScore (xs.map k.measure) = kurtosisScore xs := by
  have hratio : ∀ m : CentralMoments ℝ, k.factor ^ 4 * m.m4 /
      (k.factor ^ 2 * m.m2 * (k.factor ^ 2 * m.m2)) = m.m4 / (m.m2 * m.m2) := by
    intro m
    rw [← mul_div_mul_left m.m4 (m.m2 * m.m2) (pow_pos k.factor_pos 4).ne']
    congr 1
    ring
  have hcount : (count (xs.map k.measure) : ℝ) = count xs := by
    rw [count_eq, count_eq, List.length_map]
  rw [kurtosisScore, kurtosisScore, varyingMoments_map_unit, hcount]
  cases varyingMoments xs with
  | error err => rfl
  | ok m =>
      dsimp only [Except.map, ok_bind]
      rw [hratio]

section Tests

variable [Tails ℝ]

/-- **The test of symmetry does not depend on the unit.** -/
theorem skewTest_map_unit (xs : List ℝ) : skewTest (xs.map k.measure) = skewTest xs := by
  rw [skewTest, skewTest, require_eq_of_length (List.length_map _), skewScore_map_unit]

/-- **The test of normality does not depend on the unit.** -/
theorem normalTest_map_unit (xs : List ℝ) : normalTest (xs.map k.measure) = normalTest xs := by
  rw [normalTest, normalTest, require_eq_of_length (List.length_map _), skewScore_map_unit,
    kurtosisScore_map_unit]

end Tests

/-! ### Positions in the sorted sample -/

/-- **A quantile is measured as the values are.** -/
theorem quantile_map_unit (h : xs ≠ []) (q : ℝ) :
    quantile (xs.map k.measure) q = k.measure (quantile xs q) :=
  quantile_map_affine h k.factor_pos.le k.shift q

/-- **A median is measured as the values are.** -/
theorem median_map_unit (h : xs ≠ []) : median (xs.map k.measure) = k.measure (median xs) := by
  rw [← quantile_half h, ← quantile_map_unit k h, quantile_half (by simpa using h)]

/-- **Outliers stay outliers**, since the fences move with the quartiles. -/
theorem tukeyOutliers_map_unit (xs : List ℝ) :
    tukeyOutliers (xs.map k.measure) = tukeyOutliers xs :=
  tukeyOutliers_map_affine k.factor_pos.ne' k.shift xs

end StudyAnalysis.Exact
