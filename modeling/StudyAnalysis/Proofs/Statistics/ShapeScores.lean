/-
**When the scores of shape are defined.**

The scores of skewness and kurtosis are built from constants that depend on the size of the sample
only: roots of logarithms of roots of rational functions.  They are defined from the least size on
that the tests take.  The decisive one is the kurtosis of the sample skewness, a quotient of two
polynomials of degree four that is three at size seven and above three from then on; all that
follows is a chain of positive numbers.

To say that nothing has been left out of this chain, the scores are computed in an arithmetic that
refuses divisors, radicands and arguments of logarithms that are not positive.  They give what exact
arithmetic gives.  The one divisor that can vanish is that of the kurtosis transform, and the test
of normality checks it.

Main definitions:

* `StudyAnalysis.Exact.skewBeta2` — the kurtosis of the sample skewness;
* `StudyAnalysis.Exact.kurtosisSpread`, `StudyAnalysis.Exact.kurtosisRootBeta1`,
  `StudyAnalysis.Exact.kurtosisFreedom` — the constants of the kurtosis;
* `StudyAnalysis.Exact.kurtosisDenominator` — the divisor that can vanish;
* `StudyAnalysis.Exact.SkewConstants`, `StudyAnalysis.Exact.KurtosisConstants` — **what is positive
  for samples of a size**;
* `StudyAnalysis.Exact.skewStatistic`, `StudyAnalysis.Exact.kurtosisStatistic` — the scores of a
  sample that varies.

Main results:

* `StudyAnalysis.Exact.three_lt_skewBeta2`, `StudyAnalysis.Exact.one_lt_skewSlope` — the constants
  of the skewness;
* `StudyAnalysis.Exact.kurtosisScore_eq` — the score of the kurtosis in closed form;
* `StudyAnalysis.GuardedReal.skewScore_map_value`,
  `StudyAnalysis.GuardedReal.kurtosisScore_map_value` — **the scores meet positive divisors and
  radicands only**;
* `StudyAnalysis.Exact.shapeTests_defined` — **the tests of shape fail on short and on constant
  samples only, and where the checked divisor vanishes**.
-/

import StudyAnalysis.Proofs.Number.Guarded
import StudyAnalysis.Proofs.Statistics.MeanTests
import StudyAnalysis.Proofs.Statistics.Shape

set_option autoImplicit false
set_option relaxedAutoImplicit false

namespace StudyAnalysis

open Numeric Fallible

namespace Exact

/-! ### Samples that vary -/

section Moments

variable {xs : List ℝ}

/-- **The second moment is positive exactly if the sample varies.** -/
theorem m2_pos_iff : 0 < (centralMoments xs).m2 ↔ Varies xs := by
  rw [centralMoments_eq, ← squaresAbout_mean_pos_iff]
  by_cases hne : xs = []
  · simp [hne, averageDeviation, squaresAbout]
  · exact div_pos_iff_of_pos_right (cast_length_pos hne)

theorem varyingMoments_of_varies (h : Varies xs) : varyingMoments xs = .ok (centralMoments xs) := by
  rw [varyingMoments_eq, if_neg (not_le.2 (m2_pos_iff.2 h))]

theorem varyingMoments_of_not_varies (h : ¬ Varies xs) :
    varyingMoments xs = .error (.degenerate .constantSample) := by
  rw [varyingMoments_eq, if_pos (not_lt.1 (m2_pos_iff.not.2 h))]

end Moments

/-! ### Constants of the skewness -/

/-- The kurtosis of the skewness of samples of a size. -/
noncomputable def skewBeta2 (n : ℝ) : ℝ :=
  3 * (n * n + 27 * n - 70) * (n + 1) * (n + 3) / ((n - 2) * (n + 5) * (n + 7) * (n + 9))

theorem skewSlope_eq (n : ℝ) : skewSlope n = -1 + Real.sqrt (2 * (skewBeta2 n - 1)) := rfl

section Skewness

variable {n : ℝ} (h : 8 ≤ n)

include h

/-- **The kurtosis of the sample skewness is above three**: numerator and denominator differ by a
multiple of `n - 7`. -/
theorem three_lt_skewBeta2 : 3 < skewBeta2 n := by
  have h2 : 0 < n - 2 := by linarith
  have h7 : 0 < n - 7 := by linarith
  have hquadratic : 0 < n * n + 2 * n - 5 := by nlinarith
  have hgap : 0 < 12 * (n - 7) * (n * n + 2 * n - 5) := by positivity
  rw [skewBeta2, lt_div_iff₀ (by positivity)]
  calc 3 * ((n - 2) * (n + 5) * (n + 7) * (n + 9))
      < 3 * ((n - 2) * (n + 5) * (n + 7) * (n + 9)) +
          3 * (12 * (n - 7) * (n * n + 2 * n - 5)) := by linarith
    _ = 3 * (n * n + 27 * n - 70) * (n + 1) * (n + 3) := by ring

theorem one_lt_skewSlope : 1 < skewSlope n := by
  have hroot : 2 < Real.sqrt (2 * (skewBeta2 n - 1)) := by
    rw [Real.lt_sqrt two_pos.le]
    linarith [three_lt_skewBeta2 h]
  rw [skewSlope_eq]
  linarith

theorem log_skewSlope_pos : 0 < Real.log (skewSlope n) :=
  Real.log_pos (one_lt_skewSlope h)

theorem skewDelta_pos : 0 < skewDelta n :=
  one_div_pos.2 (Real.sqrt_pos.2 (mul_pos one_half_pos (log_skewSlope_pos h)))

theorem skewAlpha_pos : 0 < skewAlpha n :=
  Real.sqrt_pos.2 (div_pos two_pos (sub_pos.2 (one_lt_skewSlope h)))

end Skewness

/-- The argument of the logarithm of the score of a skewness is positive. -/
theorem add_sqrt_square_pos (t : ℝ) : 0 < t + Real.sqrt (square t + 1) := by
  have h := Real.exp_pos (Real.arsinh t)
  rwa [Real.exp_arsinh, add_comm 1, sq] at h

/-! ### Constants of the kurtosis -/

/-- The variance of the kurtosis of samples of a size. -/
noncomputable def kurtosisSpread (n : ℝ) : ℝ :=
  24 * n * (n - 2) * (n - 3) / (square (n + 1) * (n + 3) * (n + 5))

/-- The skewness of the kurtosis of samples of a size. -/
noncomputable def kurtosisRootBeta1 (n : ℝ) : ℝ :=
  6 * (n * n - 5 * n + 2) / ((n + 7) * (n + 9)) *
    Real.sqrt (6 * (n + 3) * (n + 5) / (n * (n - 2) * (n - 3)))

/-- The degrees of freedom of the chi-square distribution that has the skewness of the kurtosis. -/
noncomputable def kurtosisFreedom (n : ℝ) : ℝ :=
  6 + 8 / kurtosisRootBeta1 n *
    (2 / kurtosisRootBeta1 n + Real.sqrt (1 + 4 / square (kurtosisRootBeta1 n)))

/-- The kurtosis of a sample of a size, standardised for that size. -/
noncomputable def standardKurtosis (n : ℝ) (m : CentralMoments ℝ) : ℝ :=
  (m.m4 / (m.m2 * m.m2) - 3 * (n - 1) / (n + 1)) / Real.sqrt (kurtosisSpread n)

/-- The divisor of the transformation of a kurtosis to a normal score. -/
noncomputable def kurtosisDenominator (n : ℝ) (m : CentralMoments ℝ) : ℝ :=
  1 + standardKurtosis n m * Real.sqrt (2 / (kurtosisFreedom n - 4))

/-- The score of a kurtosis, from the divisor of its transformation. -/
noncomputable def kurtosisTransform (n d : ℝ) : ℝ :=
  (1 - 2 / (9 * kurtosisFreedom n) - signum d * cbrt ((1 - 2 / kurtosisFreedom n) / |d|)) /
    Real.sqrt (2 / (9 * kurtosisFreedom n))

/-- **The score of the kurtosis of a sample.** -/
theorem kurtosisScore_eq (xs : List ℝ) : kurtosisScore xs = do
    let m ← varyingMoments xs
    if kurtosisDenominator xs.length m = 0 then throw (.degenerate .kurtosisTransform)
    return kurtosisTransform xs.length (kurtosisDenominator xs.length m) := by
  rw [kurtosisScore]
  cases varyingMoments xs with
  | error err => rfl
  | ok m =>
      simp only [ok_bind, beq_iff_eq, numeral_one, numeral_zero]
      by_cases hd : kurtosisDenominator xs.length m = 0
      · rw [if_pos hd]
        exact if_pos hd
      · rw [if_neg hd]
        exact if_neg hd

section Kurtosis

variable {n : ℝ} (h : 8 ≤ n)

include h

theorem kurtosisSpread_pos : 0 < kurtosisSpread n := by
  have h0 : 0 < n := by linarith
  have h2 : 0 < n - 2 := by linarith
  have h3 : 0 < n - 3 := by linarith
  rw [kurtosisSpread, square_eq]
  positivity

theorem kurtosisRootBeta1_pos : 0 < kurtosisRootBeta1 n := by
  have h0 : 0 < n := by linarith
  have h2 : 0 < n - 2 := by linarith
  have h3 : 0 < n - 3 := by linarith
  have hquadratic : 0 < n * n - 5 * n + 2 := by nlinarith
  rw [kurtosisRootBeta1]
  positivity

theorem six_lt_kurtosisFreedom : 6 < kurtosisFreedom n := by
  have hroot := kurtosisRootBeta1_pos h
  have hterm : 0 < 8 / kurtosisRootBeta1 n *
      (2 / kurtosisRootBeta1 n + Real.sqrt (1 + 4 / square (kurtosisRootBeta1 n))) := by
    positivity
  rw [kurtosisFreedom]
  linarith

end Kurtosis

end Exact

/-! ### Scores in arithmetic with guards -/

namespace GuardedReal

open Exact

variable {xs : List ℝ}

theorem count_map_value : (count (xs.map value) : GuardedReal) = value xs.length := by
  rw [count_eq, Exact.count_eq, List.length_map]

/-- The root of a positive quotient passes the guards. -/
theorem sqrt_div_value {x y : ℝ} (hx : 0 < x) (hy : 0 < y) :
    sqrt (value x / value y) = value (Real.sqrt (x / y)) := by
  rw [value_div hy, sqrt_value (div_pos hx hy)]

/-- A mean of deviations of numbers passes the guards. -/
theorem averageDeviation_map_value {f : ℝ → ℝ} {g : GuardedReal → GuardedReal}
    (hg : ∀ d, g (value d) = value (f d)) (hne : xs ≠ []) :
    (xs.map value).foldl (fun total x => total + g (x - mean (xs.map value))) 0 /
      count (xs.map value) = value (averageDeviation f xs) := by
  have hstep : ∀ x ∈ xs, ∀ total, value total + g (value x - value (mean xs)) =
      value (total + f (x - mean xs)) := by
    intro x _ total
    rw [value_sub, hg, value_add]
  rw [mean_map_value, List.foldl_map, numeral_eq, foldl_value hstep, count_map_value,
    value_div (cast_length_pos hne), foldl_add_eq, numeral_zero, zero_add, averageDeviation]

/-- Moments as numbers that passed the guards. -/
def momentValues (m : CentralMoments ℝ) : CentralMoments GuardedReal :=
  ⟨value m.m2, value m.m3, value m.m4⟩

theorem centralMoments_map_value (hne : xs ≠ []) :
    centralMoments (xs.map value) = momentValues (centralMoments xs) := by
  have h2 := averageDeviation_map_value (f := square) (g := square) (fun _ => rfl) hne
  have h3 := averageDeviation_map_value (f := fun d => square d * d) (g := fun d => square d * d)
    (fun _ => rfl) hne
  have h4 := averageDeviation_map_value (f := fun d => square d * square d)
    (g := fun d => square d * square d) (fun _ => rfl) hne
  rw [centralMoments_eq]
  exact congr (congrArg₂ CentralMoments.mk h2 h3) h4

theorem varyingMoments_map_value (hne : xs ≠ []) :
    varyingMoments (xs.map value) = (varyingMoments xs).map momentValues := by
  rw [varyingMoments, varyingMoments, centralMoments_map_value hne]
  simp only [momentValues, numeral_eq, value_le_iff]
  split <;> rfl

section Skewness

variable {n : ℝ} (h : 8 ≤ n)

include h

theorem skewBeta2_value : 3 * (value n * value n + 27 * value n - 70) * (value n + 1) *
      (value n + 3) / ((value n - 2) * (value n + 5) * (value n + 7) * (value n + 9)) =
    value (skewBeta2 n) := by
  have h2 : 0 < n - 2 := by linarith
  have hdivisor : 0 < (n - 2) * (n + 5) * (n + 7) * (n + 9) := by positivity
  simp only [numeral_eq, numeral_one, value_add, value_sub, value_mul]
  exact value_div hdivisor

theorem skewSlope_value : -1 + sqrt (2 * (value (skewBeta2 n) - 1)) = value (skewSlope n) := by
  have hradicand : 0 < 2 * (skewBeta2 n - 1) := by linarith [three_lt_skewBeta2 h]
  simp only [numeral_eq, numeral_one, value_sub, value_mul, neg_value]
  rw [sqrt_value hradicand]
  rfl

theorem skewDelta_value : 1 / sqrt (1 / 2 * log (value (skewSlope n))) = value (skewDelta n) := by
  have hslope : 0 < skewSlope n := one_pos.trans (one_lt_skewSlope h)
  have hradicand : 0 < 1 / 2 * Real.log (skewSlope n) := mul_pos one_half_pos (log_skewSlope_pos h)
  simp only [numeral_eq, numeral_one]
  rw [value_div two_pos, log_value hslope, value_mul, sqrt_value hradicand,
    value_div (Real.sqrt_pos.2 hradicand)]
  rfl

theorem skewAlpha_value : sqrt (2 / (value (skewSlope n) - 1)) = value (skewAlpha n) := by
  simp only [numeral_eq, numeral_one, value_sub]
  exact sqrt_div_value two_pos (sub_pos.2 (one_lt_skewSlope h))

theorem skewness_value {m : CentralMoments ℝ} (hm : 0 < m.m2) :
    value m.m3 / pow (value m.m2) (3 / 2) *
        sqrt ((value n + 1) * (value n + 3) / (6 * (value n - 2))) =
      value (skewness n m) := by
  have h2 : 0 < n - 2 := by linarith
  have hdividend : 0 < (n + 1) * (n + 3) := by positivity
  have hdivisor : 0 < 6 * (n - 2) := by positivity
  have hpower : 0 < m.m2 ^ (3 / 2 : ℝ) := Real.rpow_pos_of_pos hm _
  simp only [numeral_eq, numeral_one, value_add, value_sub, value_mul]
  rw [sqrt_div_value hdividend hdivisor, value_div two_pos, pow_value hm, value_div hpower,
    value_mul]
  rfl

/-- The argument of the logarithm is positive whatever the skewness is. -/
theorem skewTransform_value (y : ℝ) :
    value (skewDelta n) * log ((if value y == 0 then 1 else value y) / value (skewAlpha n) +
        sqrt (square ((if value y == 0 then 1 else value y) / value (skewAlpha n)) + 1)) =
      value (skewTransform n y) := by
  have hnonzero : (if value y == 0 then 1 else value y) = value (if y = 0 then 1 else y) := by
    simp only [numeral_eq, numeral_zero, numeral_one, value_beq, decide_eq_true_eq, apply_ite value]
  have hradicand (t : ℝ) : 0 < square t + 1 := add_pos_of_nonneg_of_pos (mul_self_nonneg t) one_pos
  rw [hnonzero, value_div (skewAlpha_pos h), square_value, numeral_eq, numeral_one, value_add,
    sqrt_value (hradicand _), value_add, log_value (add_sqrt_square_pos _), value_mul,
    skewTransform, Real.arsinh, square_eq, sq, add_comm (1 : ℝ)]

end Skewness

/-- **The score of the skewness meets positive divisors and radicands only.** -/
theorem skewScore_map_value (hlength : 8 ≤ xs.length) :
    skewScore (xs.map value) = (skewScore xs).map value := by
  have hne : xs ≠ [] := List.ne_nil_of_length_pos (by omega)
  have h : (8 : ℝ) ≤ xs.length := Nat.ofNat_le_cast.2 hlength
  rw [skewScore_eq, skewScore, varyingMoments_map_value hne, varyingMoments_eq]
  split
  · rfl
  · rename_i hm
    rw [not_le] at hm
    refine congrArg Except.ok ?_
    simp only [count_map_value, momentValues, skewness_value h hm, skewBeta2_value h,
      skewSlope_value h, skewDelta_value h, skewAlpha_value h, skewTransform_value h]

section Kurtosis

variable {n : ℝ} (h : 8 ≤ n)

include h

theorem kurtosisSpread_value : 24 * value n * (value n - 2) * (value n - 3) /
      (square (value n + 1) * (value n + 3) * (value n + 5)) = value (kurtosisSpread n) := by
  have hdivisor : 0 < square (n + 1) * (n + 3) * (n + 5) := by
    rw [square_eq]
    positivity
  simp only [numeral_eq, numeral_one, value_add, value_sub, value_mul, square_value]
  exact value_div hdivisor

theorem kurtosisRootBeta1_value :
    6 * (value n * value n - 5 * value n + 2) / ((value n + 7) * (value n + 9)) *
        sqrt (6 * (value n + 3) * (value n + 5) / (value n * (value n - 2) * (value n - 3))) =
      value (kurtosisRootBeta1 n) := by
  have h0 : 0 < n := by linarith
  have h2 : 0 < n - 2 := by linarith
  have h3 : 0 < n - 3 := by linarith
  have hfactor : 0 < (n + 7) * (n + 9) := by positivity
  have hdividend : 0 < 6 * (n + 3) * (n + 5) := by positivity
  have hdivisor : 0 < n * (n - 2) * (n - 3) := by positivity
  simp only [numeral_eq, value_add, value_sub, value_mul]
  rw [value_div hfactor, sqrt_div_value hdividend hdivisor, value_mul]
  rfl

theorem kurtosisFreedom_value :
    6 + 8 / value (kurtosisRootBeta1 n) * (2 / value (kurtosisRootBeta1 n) +
        sqrt (1 + 4 / square (value (kurtosisRootBeta1 n)))) =
      value (kurtosisFreedom n) := by
  have hroot := kurtosisRootBeta1_pos h
  have hsquare : 0 < square (kurtosisRootBeta1 n) := mul_pos hroot hroot
  have hradicand : 0 < 1 + 4 / square (kurtosisRootBeta1 n) := by positivity
  simp only [numeral_eq, numeral_one, square_value]
  rw [value_div hroot, value_div hroot, value_div hsquare, value_add, sqrt_value hradicand]
  rfl

theorem standardKurtosis_value {m : CentralMoments ℝ} (hm : 0 < m.m2) :
    (value m.m4 / (value m.m2 * value m.m2) - 3 * (value n - 1) / (value n + 1)) /
        sqrt (value (kurtosisSpread n)) =
      value (standardKurtosis n m) := by
  have h1 : 0 < n + 1 := by linarith
  have hspread := kurtosisSpread_pos h
  simp only [numeral_eq, numeral_one, value_add, value_sub, value_mul]
  rw [value_div (mul_pos hm hm), value_div h1, value_sub, sqrt_value hspread,
    value_div (Real.sqrt_pos.2 hspread)]
  rfl

theorem kurtosisDenominator_value (m : CentralMoments ℝ) :
    1 + value (standardKurtosis n m) * sqrt (2 / (value (kurtosisFreedom n) - 4)) =
      value (kurtosisDenominator n m) := by
  have hdivisor : 0 < kurtosisFreedom n - 4 := by linarith [six_lt_kurtosisFreedom h]
  simp only [numeral_eq, numeral_one, value_sub]
  rw [sqrt_div_value two_pos hdivisor]
  rfl

theorem kurtosisTransform_value {d : ℝ} (hd : d ≠ 0) :
    (1 - 2 / (9 * value (kurtosisFreedom n)) - signum (value d) *
        cbrt ((1 - 2 / value (kurtosisFreedom n)) / Numeric.abs (value d))) /
        sqrt (2 / (9 * value (kurtosisFreedom n))) =
      value (kurtosisTransform n d) := by
  have hfreedom : 0 < kurtosisFreedom n := by linarith [six_lt_kurtosisFreedom h]
  have hscaled : 0 < 9 * kurtosisFreedom n := by positivity
  have hroot : 0 < Real.sqrt (2 / (9 * kurtosisFreedom n)) := by positivity
  simp only [numeral_eq, numeral_one, value_mul, abs_value, signum_value]
  rw [value_div hscaled, value_div hfreedom, value_sub, value_sub, value_div (abs_pos.2 hd),
    cbrt_value, value_mul, value_sub, sqrt_value (div_pos two_pos hscaled), value_div hroot]
  rfl

end Kurtosis

/-- **The score of the kurtosis meets positive divisors and radicands only**, but for the divisor
that it checks. -/
theorem kurtosisScore_map_value (hlength : 8 ≤ xs.length) :
    kurtosisScore (xs.map value) = (kurtosisScore xs).map value := by
  have hne : xs ≠ [] := List.ne_nil_of_length_pos (by omega)
  have h : (8 : ℝ) ≤ xs.length := Nat.ofNat_le_cast.2 hlength
  rw [kurtosisScore_eq, kurtosisScore, varyingMoments_map_value hne, varyingMoments_eq]
  split
  · rfl
  · rename_i hm
    rw [not_le] at hm
    rw [ok_bind, Except.map, ok_bind]
    have hcheck (d : ℝ) : (value d == 0) = decide (d = 0) := by
      rw [numeral_eq, numeral_zero, value_beq]
    simp only [count_map_value, momentValues, kurtosisSpread_value h, kurtosisRootBeta1_value h,
      kurtosisFreedom_value h, standardKurtosis_value h hm, kurtosisDenominator_value h, hcheck,
      decide_eq_true_eq]
    by_cases hd : kurtosisDenominator xs.length (centralMoments xs) = 0
    · rw [if_pos hd, if_pos hd]
      rfl
    · rw [if_neg hd, if_neg hd]
      exact congrArg Except.ok (kurtosisTransform_value h hd)

end GuardedReal

/-! ### Tests of shape -/

namespace Exact

/-- The constants of the score of a skewness: the divisors `slope - 1` and `log slope` and the
argument of the outer logarithm are positive. -/
structure SkewConstants (n : ℝ) : Prop where
  three_lt_beta2 : 3 < skewBeta2 n
  slope_eq : skewSlope n = -1 + Real.sqrt (2 * (skewBeta2 n - 1))
  one_lt_slope : 1 < skewSlope n
  log_slope_pos : 0 < Real.log (skewSlope n)
  argument_pos (y : ℝ) : 0 < y / skewAlpha n + Real.sqrt (square (y / skewAlpha n) + 1)

/-- The constants of the score of a kurtosis. -/
structure KurtosisConstants (n : ℝ) : Prop where
  spread_pos : 0 < kurtosisSpread n
  rootBeta1_pos : 0 < kurtosisRootBeta1 n
  six_lt_freedom : 6 < kurtosisFreedom n

theorem skewConstants {n : ℝ} (h : 8 ≤ n) : SkewConstants n :=
  ⟨three_lt_skewBeta2 h, skewSlope_eq n, one_lt_skewSlope h, log_skewSlope_pos h,
    fun _ => add_sqrt_square_pos _⟩

theorem kurtosisConstants {n : ℝ} (h : 8 ≤ n) : KurtosisConstants n :=
  ⟨kurtosisSpread_pos h, kurtosisRootBeta1_pos h, six_lt_kurtosisFreedom h⟩

section Tests

variable {xs : List ℝ}

/-- The score of the skewness of a sample that varies. -/
noncomputable def skewStatistic (xs : List ℝ) : ℝ :=
  skewTransform xs.length (skewness xs.length (centralMoments xs))

/-- The divisor of the score of the kurtosis of a sample that varies. -/
noncomputable def kurtosisDivisor (xs : List ℝ) : ℝ :=
  kurtosisDenominator xs.length (centralMoments xs)

/-- The score of the kurtosis of a sample that varies. -/
noncomputable def kurtosisStatistic (xs : List ℝ) : ℝ :=
  kurtosisTransform xs.length (kurtosisDivisor xs)

theorem skewScore_of_varies (h : Varies xs) : skewScore xs = .ok (skewStatistic xs) := by
  rw [skewScore_eq, varyingMoments_of_varies h]
  rfl

theorem kurtosisScore_of_varies (h : Varies xs) : kurtosisScore xs =
    if kurtosisDivisor xs = 0 then .error (.degenerate .kurtosisTransform)
    else .ok (kurtosisStatistic xs) := by
  rw [kurtosisScore_eq, varyingMoments_of_varies h, ok_bind]
  by_cases hd : kurtosisDivisor xs = 0
  · rw [if_pos hd]
    exact if_pos hd
  · rw [if_neg hd]
    exact if_neg hd

variable [Tails ℝ]

theorem skewTest_of_varies (hlength : normalityMinimum ≤ xs.length) (h : Varies xs) :
    skewTest xs =
      .ok (.clamped (skewStatistic xs) (Tails.normalTwoSided (skewStatistic xs)) none) := by
  rw [skewTest, (require_eq_ok_iff xs _).2 hlength, ok_bind, skewScore_of_varies h]
  rfl

theorem normalTest_of_varies (hlength : normalityMinimum ≤ xs.length) (h : Varies xs) :
    normalTest xs =
      if kurtosisDivisor xs = 0 then .error (.degenerate .kurtosisTransform)
      else
        let k2 := square (skewStatistic xs) + square (kurtosisStatistic xs)
        .ok (.clamped k2 (Tails.chiSquare k2 2) (some 2)) := by
  rw [normalTest, (require_eq_ok_iff xs _).2 hlength, ok_bind, skewScore_of_varies h, ok_bind,
    kurtosisScore_of_varies h]
  split <;> rfl

/-- Short and constant samples have no score of skewness. -/
theorem exists_error_of_short_or_constant
    (h : xs.length < normalityMinimum ∨ ¬ Varies xs) :
    (∃ err, skewTest xs = .error err) ∧ ∃ err, normalTest xs = .error err := by
  obtain hshort | hconstant := h
  · have hrequire : require xs normalityMinimum = .error _ := if_pos hshort
    rw [skewTest, normalTest, hrequire]
    exact ⟨⟨_, rfl⟩, _, rfl⟩
  · rw [skewTest, normalTest, skewScore_eq, varyingMoments_of_not_varies hconstant]
    cases require xs normalityMinimum with
    | error err => exact ⟨⟨err, rfl⟩, err, rfl⟩
    | ok _ => exact ⟨⟨_, rfl⟩, _, rfl⟩

theorem skewTest_eq_error_iff : (∃ err, skewTest xs = .error err) ↔
    xs.length < normalityMinimum ∨ ¬ Varies xs := by
  refine ⟨?_, fun h => (exists_error_of_short_or_constant h).1⟩
  rintro ⟨err, herror⟩
  by_contra hall
  rw [not_or, not_lt, not_not] at hall
  rw [skewTest_of_varies hall.1 hall.2] at herror
  cases herror

theorem normalTest_eq_error_iff : (∃ err, normalTest xs = .error err) ↔
    xs.length < normalityMinimum ∨ ¬ Varies xs ∨ kurtosisDivisor xs = 0 := by
  rw [← or_assoc]
  by_cases hfew : xs.length < normalityMinimum ∨ ¬ Varies xs
  · exact ⟨fun _ => .inl hfew, fun _ => (exists_error_of_short_or_constant hfew).2⟩
  · have hall := hfew
    rw [not_or, not_lt, not_not] at hall
    rw [normalTest_of_varies hall.1 hall.2]
    split
    · rename_i hd
      exact ⟨fun _ => .inr hd, fun _ => ⟨_, rfl⟩⟩
    · rename_i hd
      refine ⟨?_, fun h => absurd h (not_or.2 ⟨hfew, hd⟩)⟩
      rintro ⟨err, herror⟩
      cases herror

/-- **The scores of shape are defined from the least sample size on.**  The constants of both scores
are positive, that of the skewness because the kurtosis of the sample skewness is above three.  In
an arithmetic that refuses every divisor, radicand and argument of a logarithm that is not positive,
the scores are those of exact arithmetic, or fail as these do where the sample is constant or the
checked divisor vanishes.  So the test of symmetry fails on short and on constant samples only, and
the test of normality on these and where the checked divisor vanishes. -/
theorem shapeTests_defined (xs : List ℝ) :
    (normalityMinimum ≤ xs.length →
      SkewConstants xs.length ∧ KurtosisConstants xs.length ∧
      skewScore (xs.map GuardedReal.value) = (skewScore xs).map GuardedReal.value ∧
      kurtosisScore (xs.map GuardedReal.value) = (kurtosisScore xs).map GuardedReal.value) ∧
    (Varies xs → skewScore xs = .ok (skewStatistic xs) ∧
      kurtosisScore xs = if kurtosisDivisor xs = 0 then .error (.degenerate .kurtosisTransform)
        else .ok (kurtosisStatistic xs)) ∧
    ((∃ err, skewTest xs = .error err) ↔ xs.length < normalityMinimum ∨ ¬ Varies xs) ∧
    ((∃ err, normalTest xs = .error err) ↔
      xs.length < normalityMinimum ∨ ¬ Varies xs ∨ kurtosisDivisor xs = 0) := by
  refine ⟨fun hlength => ?_, fun h => ⟨skewScore_of_varies h, kurtosisScore_of_varies h⟩,
    skewTest_eq_error_iff, normalTest_eq_error_iff⟩
  have h : (8 : ℝ) ≤ xs.length := Nat.ofNat_le_cast.2 hlength
  exact ⟨skewConstants h, kurtosisConstants h, GuardedReal.skewScore_map_value hlength,
    GuardedReal.kurtosisScore_map_value hlength⟩

omit [Tails ℝ] in
/-- Eight values of which one stands apart are enough for both tests. -/
theorem shapeTests_of_outlier :
    let _tails := densityTails
    let xs : List ℝ := [1, 0, 0, 0, 0, 0, 0, 0]
    SkewConstants 8 ∧ KurtosisConstants 8 ∧
      skewScore (xs.map GuardedReal.value) = .ok (.value (skewStatistic xs)) ∧
      (∃ out, skewTest xs = .ok out) ∧ ∃ out, normalTest xs = .ok out := by
  intro _tails xs
  have hlength : normalityMinimum ≤ xs.length := le_refl 8
  have hn : (xs.length : ℝ) = 8 := by norm_num [xs]
  have hvaries : Varies xs := ⟨1, by simp [xs], 0, by simp [xs], one_ne_zero⟩
  have hmoments : (centralMoments xs).m2 = 7 / 64 ∧ (centralMoments xs).m4 = 301 / 4096 := by
    norm_num [centralMoments_eq, averageDeviation, mean_eq, square_eq, xs]
  have hdivisor : kurtosisDivisor xs ≠ 0 := by
    have hkurtosis : 0 ≤ standardKurtosis 8 (centralMoments xs) := by
      rw [standardKurtosis, hmoments.1, hmoments.2]
      exact div_nonneg (by norm_num) (Real.sqrt_nonneg _)
    rw [kurtosisDivisor, kurtosisDenominator, hn]
    positivity
  obtain ⟨hscores, hvary, hskew, hnormal⟩ := shapeTests_defined xs
  obtain ⟨hskewConstants, hkurtosisConstants, hguarded, -⟩ := hscores hlength
  rw [hn] at hskewConstants hkurtosisConstants
  rw [(hvary hvaries).1] at hguarded
  refine ⟨hskewConstants, hkurtosisConstants, hguarded, ?_, ?_⟩
  · cases hout : skewTest xs with
    | ok out => exact ⟨out, rfl⟩
    | error err => exact absurd (hskew.1 ⟨err, hout⟩) (by simp [hlength.not_gt, hvaries])
  · cases hout : normalTest xs with
    | ok out => exact ⟨out, rfl⟩
    | error err =>
        exact absurd (hnormal.1 ⟨err, hout⟩) (by simp [hlength.not_gt, hvaries, hdivisor])

end Tests

end Exact

end StudyAnalysis
