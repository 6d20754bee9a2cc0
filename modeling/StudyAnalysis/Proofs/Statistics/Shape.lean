/-
**The tests of shape under reordering and reflection.**

The central moments of a sample do not depend on its order, and a change of unit multiplies each of
them by a power of the scale.  So the tests of skewness and of normality do not depend on the order
either.  Reflection changes the sign of the third moment only: the score of the skewness changes its
sign with it, or stays if there is no skewness, while its p-value and the whole test of normality
look at its absolute value.

Main definitions:

* `StudyAnalysis.Exact.skewness` — the standardised third moment;
* `StudyAnalysis.Exact.skewDelta`, `StudyAnalysis.Exact.skewAlpha` — the constants of the
  transformation to a normal score, for each sample size.

Main results:

* `StudyAnalysis.Exact.centralMoments_map_affine` — moments under a change of unit;
* `StudyAnalysis.Exact.skewScore_eq` — the score as an inverse hyperbolic sine;
* `StudyAnalysis.Exact.normalTest_eq_of_perm`, `StudyAnalysis.Exact.skewTest_eq_of_perm` — **order is
  irrelevant**;
* `StudyAnalysis.Exact.normalTest_map_neg`, `StudyAnalysis.Exact.pValue_skewTest_map_neg` — **so is
  the direction of a sample**.
-/

import StudyAnalysis.Proofs.Fallible
import StudyAnalysis.Proofs.Statistics.Descriptive
import StudyAnalysis.Statistics.Normality

set_option autoImplicit false
set_option relaxedAutoImplicit false

namespace StudyAnalysis.Exact

open Numeric Fallible

variable {xs ys : List ℝ}

/-! ### Central moments -/

/-- The mean of a function of the deviations from the mean. -/
noncomputable def averageDeviation (f : ℝ → ℝ) (xs : List ℝ) : ℝ :=
  (xs.map fun x => f (x - mean xs)).sum / xs.length

theorem centralMoments_eq (xs : List ℝ) : centralMoments xs =
    ⟨averageDeviation square xs, averageDeviation (fun d => square d * d) xs,
      averageDeviation (fun d => square d * square d) xs⟩ := by
  simp only [centralMoments, averageDeviation, foldl_add_eq, numeral_zero, zero_add, count_eq]

theorem averageDeviation_eq_of_perm (f : ℝ → ℝ) (h : xs.Perm ys) :
    averageDeviation f xs = averageDeviation f ys := by
  rw [averageDeviation, averageDeviation, mean_eq_of_perm h, (h.map _).sum_eq, h.length_eq]

theorem centralMoments_eq_of_perm (h : xs.Perm ys) : centralMoments xs = centralMoments ys := by
  simp only [centralMoments_eq, averageDeviation_eq_of_perm _ h]

/-- A change of unit takes a factor out of a function of the deviations that is homogeneous. -/
theorem averageDeviation_map_affine {f : ℝ → ℝ} {a c : ℝ} (hf : ∀ d, f (a * d) = c * f d) (b : ℝ)
    (xs : List ℝ) :
    averageDeviation f (xs.map fun x => a * x + b) = c * averageDeviation f xs := by
  by_cases hne : xs = []
  · simp [averageDeviation, hne]
  have hdeviation : ∀ x, f (a * x + b - (a * mean xs + b)) = c * f (x - mean xs) := by
    intro x
    rw [← hf]
    congr 1
    ring
  rw [averageDeviation, averageDeviation, mean_map_affine a b hne, List.length_map, List.map_map,
    ← mul_div_assoc, ← List.sum_map_mul_left]
  simp only [Function.comp_def, hdeviation]

/-- **A change of unit multiplies each moment by a power of the scale.** -/
theorem centralMoments_map_affine (a b : ℝ) (xs : List ℝ) :
    centralMoments (xs.map fun x => a * x + b) =
      ⟨a ^ 2 * (centralMoments xs).m2, a ^ 3 * (centralMoments xs).m3,
        a ^ 4 * (centralMoments xs).m4⟩ := by
  simp only [centralMoments_eq]
  rw [averageDeviation_map_affine (c := a ^ 2), averageDeviation_map_affine (c := a ^ 3),
    averageDeviation_map_affine (c := a ^ 4)] <;>
  · intro d
    simp only [square_eq]
    ring

theorem centralMoments_map_neg (xs : List ℝ) : centralMoments (xs.map (-·)) =
    ⟨(centralMoments xs).m2, -(centralMoments xs).m3, (centralMoments xs).m4⟩ := by
  have h := centralMoments_map_affine (-1) 0 xs
  simp only [neg_mul, one_mul, add_zero] at h
  rw [h]
  norm_num

theorem varyingMoments_eq (xs : List ℝ) : varyingMoments xs =
    if (centralMoments xs).m2 ≤ 0 then .error (.degenerate .constantSample)
    else .ok (centralMoments xs) := by
  rw [varyingMoments, numeral_zero]

theorem varyingMoments_eq_of_perm (h : xs.Perm ys) : varyingMoments xs = varyingMoments ys := by
  rw [varyingMoments, varyingMoments, centralMoments_eq_of_perm h]

/-- Reflection changes the sign of the third moment and nothing else. -/
theorem varyingMoments_map_neg (xs : List ℝ) : varyingMoments (xs.map (-·)) =
    (varyingMoments xs).map fun m => ⟨m.m2, -m.m3, m.m4⟩ := by
  rw [varyingMoments_eq, varyingMoments_eq, centralMoments_map_neg]
  split <;> rfl

/-! ### Scores -/

/-- The skewness of a sample of a size, standardised for that size. -/
noncomputable def skewness (n : ℝ) (m : CentralMoments ℝ) : ℝ :=
  m.m3 / m.m2 ^ (3 / 2 : ℝ) * Real.sqrt ((n + 1) * (n + 3) / (6 * (n - 2)))

/-- The squared slope of the transformation to a normal score. -/
noncomputable def skewSlope (n : ℝ) : ℝ :=
  -1 + Real.sqrt (2 * (3 * (n * n + 27 * n - 70) * (n + 1) * (n + 3)
    / ((n - 2) * (n + 5) * (n + 7) * (n + 9)) - 1))

/-- The factor of the transformation to a normal score. -/
noncomputable def skewDelta (n : ℝ) : ℝ :=
  1 / Real.sqrt (1 / 2 * Real.log (skewSlope n))

/-- The unit of the transformation to a normal score. -/
noncomputable def skewAlpha (n : ℝ) : ℝ :=
  Real.sqrt (2 / (skewSlope n - 1))

/-- The score of a skewness; no skewness counts as one. -/
noncomputable def skewTransform (n y : ℝ) : ℝ :=
  skewDelta n * Real.arsinh ((if y = 0 then 1 else y) / skewAlpha n)

/-- **The score of the skewness of a sample.** -/
theorem skewScore_eq (xs : List ℝ) : skewScore xs =
    (varyingMoments xs).map fun m => skewTransform xs.length (skewness xs.length m) := by
  rw [skewScore]
  cases varyingMoments xs with
  | error err => rfl
  | ok m =>
      refine congrArg Except.ok ?_
      simp only [skewTransform, skewness, skewDelta, skewAlpha, skewSlope, Real.arsinh, count_eq,
        numeral_one, numeral_zero, sqrt_eq, log_eq, beq_iff_eq, square_eq, sq, add_comm _ (1 : ℝ)]
      rfl

theorem skewness_neg (n m2 m3 m4 : ℝ) : skewness n ⟨m2, -m3, m4⟩ = -skewness n ⟨m2, m3, m4⟩ := by
  rw [skewness, skewness, neg_div, neg_mul]

/-- The score changes its sign with the skewness, if there is any. -/
theorem skewTransform_neg (n : ℝ) {y : ℝ} (hy : y ≠ 0) :
    skewTransform n (-y) = -skewTransform n y := by
  rw [skewTransform, skewTransform, if_neg hy, if_neg (neg_ne_zero.2 hy), neg_div,
    Real.arsinh_neg, mul_neg]

/-- A skewness and its negative have scores of one size. -/
theorem abs_skewTransform_neg (n y : ℝ) : |skewTransform n (-y)| = |skewTransform n y| := by
  by_cases hy : y = 0
  · rw [hy, neg_zero]
  · rw [skewTransform_neg n hy, abs_neg]

theorem skewScore_eq_of_perm (h : xs.Perm ys) : skewScore xs = skewScore ys := by
  rw [skewScore_eq, skewScore_eq, varyingMoments_eq_of_perm h, h.length_eq]

/-- **Reflection keeps the size of the score of the skewness.** -/
theorem abs_skewScore_map_neg (xs : List ℝ) :
    (skewScore (xs.map (-·))).map (|·|) = (skewScore xs).map (|·|) := by
  rw [skewScore_eq, skewScore_eq, varyingMoments_map_neg, List.length_map]
  cases varyingMoments xs with
  | error err => rfl
  | ok m =>
      refine congrArg Except.ok ?_
      dsimp only
      rw [skewness_neg, abs_skewTransform_neg]

theorem kurtosisScore_eq_of_moments (hlength : xs.length = ys.length)
    (h : (varyingMoments xs).map (fun m => (m.m2, m.m4)) =
      (varyingMoments ys).map fun m => (m.m2, m.m4)) : kurtosisScore xs = kurtosisScore ys := by
  have hcount : (count xs : ℝ) = count ys := by rw [count_eq, count_eq, hlength]
  rw [kurtosisScore, kurtosisScore, hcount]
  cases hx : varyingMoments xs <;> cases hy : varyingMoments ys <;> rw [hx, hy] at h
  · rw [Except.error.inj h]
  · cases h
  · cases h
  · obtain ⟨hm2, hm4⟩ := Prod.mk.inj (Except.ok.inj h)
    simp only [ok_bind, hm2, hm4]

theorem kurtosisScore_eq_of_perm (h : xs.Perm ys) : kurtosisScore xs = kurtosisScore ys :=
  kurtosisScore_eq_of_moments h.length_eq (by rw [varyingMoments_eq_of_perm h])

/-- The score of the kurtosis does not look at the third moment. -/
theorem kurtosisScore_map_neg (xs : List ℝ) : kurtosisScore (xs.map (-·)) = kurtosisScore xs := by
  refine kurtosisScore_eq_of_moments (List.length_map _) ?_
  rw [varyingMoments_map_neg]
  cases varyingMoments xs <;> rfl

/-! ### Tests -/

theorem require_eq_of_length {β : Type} {xs ys : List β} (h : xs.length = ys.length)
    (needed : ℕ) : require xs needed = require ys needed := by
  rw [require, require, h]

variable [Tails ℝ]

theorem skewTest_eq_of_perm (h : xs.Perm ys) : skewTest xs = skewTest ys := by
  rw [skewTest, skewTest, require_eq_of_length h.length_eq, skewScore_eq_of_perm h]

theorem normalTest_eq_of_perm (h : xs.Perm ys) : normalTest xs = normalTest ys := by
  rw [normalTest, normalTest, require_eq_of_length h.length_eq, skewScore_eq_of_perm h,
    kurtosisScore_eq_of_perm h]

/-- A two-sided p-value looks at the size of its statistic. -/
theorem normalTwoSided_eq_of_abs {z z' : ℝ} (h : |z| = |z'|) :
    Tails.normalTwoSided z = Tails.normalTwoSided z' := by
  rw [Tails.normalTwoSided, Tails.normalTwoSided, abs_eq, abs_eq, h]

/-- **Reflection keeps the p-value of the test of symmetry.** -/
theorem pValue_skewTest_map_neg (xs : List ℝ) :
    (skewTest (xs.map (-·))).map (·.pValue) = (skewTest xs).map (·.pValue) := by
  have habs := abs_skewScore_map_neg xs
  rw [skewTest, skewTest, require_eq_of_length (List.length_map _)]
  cases require xs normalityMinimum with
  | error err => rfl
  | ok _ =>
      rw [ok_bind, ok_bind]
      cases hz : skewScore xs <;> cases hz' : skewScore (xs.map (-·)) <;> rw [hz, hz'] at habs
      · rw [Except.error.inj habs]
      · cases habs
      · cases habs
      · rw [ok_bind, ok_bind, normalTwoSided_eq_of_abs (Except.ok.inj habs)]
        rfl

/-- **Reflection changes nothing of the test of normality.** -/
theorem normalTest_map_neg (xs : List ℝ) : normalTest (xs.map (-·)) = normalTest xs := by
  have habs := abs_skewScore_map_neg xs
  rw [normalTest, normalTest, require_eq_of_length (List.length_map _), kurtosisScore_map_neg]
  cases require xs normalityMinimum with
  | error err => rfl
  | ok _ =>
      rw [ok_bind, ok_bind]
      cases hz : skewScore xs <;> cases hz' : skewScore (xs.map (-·)) <;> rw [hz, hz'] at habs
      · rw [Except.error.inj habs]
      · cases habs
      · cases habs
      · rename_i z z'
        have hsquare : square z' = square z := by
          rw [square_eq, square_eq, ← abs_mul_abs_self z', ← abs_mul_abs_self z]
          exact congrArg (fun a => a * a) (Except.ok.inj habs)
        rw [ok_bind, ok_bind, hsquare]

end StudyAnalysis.Exact
