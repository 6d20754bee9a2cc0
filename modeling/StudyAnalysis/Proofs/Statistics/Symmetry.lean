/-
**The test of symmetry under reflection.**

The third moment of a sample changes its sign when every value is replaced by its negative, and so
does the score that is computed from it, as an inverse hyperbolic sine is odd.  No skewness ought to
have the score zero, and with it the p-value one.  But a skewness of exactly zero is replaced by one
before it is transformed.  So a sample that is symmetric about its mean has the score of a sample
that is skewed to the right, whichever way it is reflected, and adds to the statistic of the test of
normality.  The score of a sample that varies is never zero: it is positive exactly if the third
moment is not negative.

The p-value looks at the size of the score only, so that it stays under reflection in every case.

Main results:

* `StudyAnalysis.Exact.m3_eq_zero_of_symmetric` — a symmetric sample has no skewness;
* `StudyAnalysis.Exact.skewStatistic_pos_iff`, `StudyAnalysis.Exact.skewStatistic_neg_iff` — **the
  sign of the score**;
* `StudyAnalysis.Exact.skewStatistic_map_neg` — reflection of the score;
* `StudyAnalysis.Exact.skewTest_reflects` — **the test of symmetry under reflection**;
* `StudyAnalysis.Exact.skewTest_of_symmetric_sample` — a symmetric sample whose score is not zero.
-/

import StudyAnalysis.Proofs.Statistics.ShapeScores

set_option autoImplicit false
set_option relaxedAutoImplicit false

namespace StudyAnalysis.Exact

open Numeric

/-! ### Symmetric samples -/

section Moments

variable {xs : List ℝ}

/-- **A sample that is symmetric about some centre has no skewness.** -/
theorem m3_eq_zero_of_symmetric {c : ℝ} (h : xs.Perm (xs.map fun x => 2 * c - x)) :
    (centralMoments xs).m3 = 0 := by
  have hreflected := centralMoments_map_affine (-1) (2 * c) xs
  have hmap : (xs.map fun x => -1 * x + 2 * c) = xs.map fun x => 2 * c - x :=
    List.map_congr_left fun x _ => by ring
  rw [hmap, ← centralMoments_eq_of_perm h] at hreflected
  have hm3 : (centralMoments xs).m3 = -(centralMoments xs).m3 := by
    conv_lhs => rw [hreflected]
    ring
  linarith

theorem Varies.map_neg (h : Varies xs) : Varies (xs.map (-·)) := by
  rw [← m2_pos_iff, centralMoments_map_neg]
  exact m2_pos_iff.2 h

end Moments

/-! ### Signs of scores -/

/-- What a third moment is multiplied by to standardise it. -/
noncomputable def skewFactor (n m2 : ℝ) : ℝ :=
  Real.sqrt ((n + 1) * (n + 3) / (6 * (n - 2))) / m2 ^ (3 / 2 : ℝ)

theorem skewness_eq (n : ℝ) (m : CentralMoments ℝ) : skewness n m = m.m3 * skewFactor n m.m2 := by
  rw [skewness, skewFactor]
  ring

section Scores

variable {n : ℝ} (h : 8 ≤ n)

include h

theorem skewFactor_pos {m2 : ℝ} (hm : 0 < m2) : 0 < skewFactor n m2 := by
  have h2 : 0 < n - 2 := by linarith
  have hpower : 0 < m2 ^ (3 / 2 : ℝ) := Real.rpow_pos_of_pos hm _
  rw [skewFactor]
  positivity

/-- **A score is positive exactly if the skewness is not negative**, as no skewness counts as
one. -/
theorem skewTransform_pos_iff {y : ℝ} : 0 < skewTransform n y ↔ 0 ≤ y := by
  rw [skewTransform, mul_pos_iff_of_pos_left (skewDelta_pos h), Real.arsinh_pos_iff,
    div_pos_iff_of_pos_right (skewAlpha_pos h)]
  split
  · rename_i hy
    exact iff_of_true one_pos hy.ge
  · rename_i hy
    exact ⟨le_of_lt, fun hle => lt_of_le_of_ne hle (Ne.symm hy)⟩

theorem skewTransform_neg_iff {y : ℝ} : skewTransform n y < 0 ↔ y < 0 := by
  constructor
  · intro hscore
    by_contra hy
    exact hscore.not_gt ((skewTransform_pos_iff h).2 (not_lt.1 hy))
  · intro hy
    have hreflected : 0 < skewTransform n (-y) := (skewTransform_pos_iff h).2 (neg_nonneg.2 hy.le)
    rwa [skewTransform_neg n hy.ne, neg_pos] at hreflected

end Scores

section Statistic

variable {xs : List ℝ} (hlength : normalityMinimum ≤ xs.length) (h : Varies xs)

include hlength h

/-- **The score of a sample is positive exactly if its third moment is not negative.** -/
theorem skewStatistic_pos_iff : 0 < skewStatistic xs ↔ 0 ≤ (centralMoments xs).m3 := by
  have hn : (8 : ℝ) ≤ xs.length := Nat.ofNat_le_cast.2 hlength
  rw [skewStatistic, skewTransform_pos_iff hn, skewness_eq,
    mul_nonneg_iff_of_pos_right (skewFactor_pos hn (m2_pos_iff.2 h))]

theorem skewStatistic_neg_iff : skewStatistic xs < 0 ↔ (centralMoments xs).m3 < 0 := by
  have hn : (8 : ℝ) ≤ xs.length := Nat.ofNat_le_cast.2 hlength
  rw [skewStatistic, skewTransform_neg_iff hn, skewness_eq, ← not_le, ← not_le,
    mul_nonneg_iff_of_pos_right (skewFactor_pos hn (m2_pos_iff.2 h))]

/-- The score of a sample that varies is never zero. -/
theorem skewStatistic_ne_zero : skewStatistic xs ≠ 0 := by
  obtain hm3 | hm3 := lt_or_ge (centralMoments xs).m3 0
  · exact ((skewStatistic_neg_iff hlength h).2 hm3).ne
  · exact ((skewStatistic_pos_iff hlength h).2 hm3).ne'

/-- **Reflection changes the sign of the score**, if there is any skewness. -/
theorem skewStatistic_map_neg (hm3 : (centralMoments xs).m3 ≠ 0) :
    skewStatistic (xs.map (-·)) = -skewStatistic xs := by
  have hn : (8 : ℝ) ≤ xs.length := Nat.ofNat_le_cast.2 hlength
  have hskewness : skewness xs.length (centralMoments xs) ≠ 0 := by
    rw [skewness_eq]
    exact mul_ne_zero hm3 (skewFactor_pos hn (m2_pos_iff.2 h)).ne'
  rw [skewStatistic, skewStatistic, centralMoments_map_neg, List.length_map, skewness_neg]
  exact skewTransform_neg _ hskewness

omit hlength h in
/-- **Without skewness the score is that of a skewness of one.** -/
theorem skewStatistic_of_m3_eq_zero (hm3 : (centralMoments xs).m3 = 0) :
    skewStatistic xs = skewDelta xs.length * Real.arsinh (1 / skewAlpha xs.length) := by
  rw [skewStatistic, skewness_eq, hm3, zero_mul, skewTransform, if_pos rfl]

omit hlength h in
/-- Without skewness reflection keeps the score. -/
theorem skewStatistic_map_neg_of_m3_eq_zero (hm3 : (centralMoments xs).m3 = 0) :
    skewStatistic (xs.map (-·)) = skewStatistic xs := by
  have hreflected : (centralMoments (xs.map (-·))).m3 = 0 := by
    rw [centralMoments_map_neg, hm3, neg_zero]
  rw [skewStatistic_of_m3_eq_zero hm3, skewStatistic_of_m3_eq_zero hreflected, List.length_map]

end Statistic

/-! ### The test of symmetry -/

section Test

variable [Tails ℝ] {xs : List ℝ}

/-- A score other than zero is not certain to be due to chance. -/
theorem pValue_clamped_lt_one (htails : ∀ z : ℝ, 0 < z → Tails.normal z < 1 / 2) {z : ℝ}
    (hz : z ≠ 0) : (TestOutput.clamped z (Tails.normalTwoSided z) none).pValue < 1 := by
  rw [TestOutput.clamped, numeral_zero, numeral_one]
  exact clamp_lt_one (normalTwoSided_lt_one htails hz)

theorem skewTest_map_neg_of_varies (hlength : normalityMinimum ≤ xs.length) (h : Varies xs) :
    skewTest (xs.map (-·)) = .ok (.clamped (skewStatistic (xs.map (-·)))
      (Tails.normalTwoSided (skewStatistic (xs.map (-·)))) none) :=
  skewTest_of_varies (by rwa [List.length_map]) h.map_neg

/-- **The test of symmetry under reflection.**  A sample that varies has a statistic other than
zero, which is positive exactly if the third moment is not negative.  Reflection changes its sign if
the third moment is not zero.  A third moment of zero, as that of every symmetric sample, has a
positive statistic that depends on the size of the sample only and that reflection keeps.  The
p-value is kept in either case; it is below one if the normal tail above positive numbers is below a
half.  The test of normality adds the square of the statistic, so it is the same for both
directions. -/
theorem skewTest_reflects (hlength : normalityMinimum ≤ xs.length) (h : Varies xs) :
    ∃ out, skewTest xs = .ok out ∧
      ((centralMoments xs).m3 ≠ 0 →
        skewTest (xs.map (-·)) = .ok { out with statistic := -out.statistic }) ∧
      ((centralMoments xs).m3 = 0 → skewTest (xs.map (-·)) = .ok out ∧
        out.statistic = skewDelta xs.length * Real.arsinh (1 / skewAlpha xs.length)) ∧
      ((∃ c, xs.Perm (xs.map fun x => 2 * c - x)) → (centralMoments xs).m3 = 0) ∧
      (0 < out.statistic ↔ 0 ≤ (centralMoments xs).m3) ∧
      (out.statistic < 0 ↔ (centralMoments xs).m3 < 0) ∧
      out.pValue = clamp 0 1 (Tails.normalTwoSided out.statistic) ∧
      ((∀ z : ℝ, 0 < z → Tails.normal z < 1 / 2) → out.pValue < 1) ∧
      normalTest (xs.map (-·)) = normalTest xs ∧
      ∀ joint, normalTest xs = .ok joint →
        joint.statistic = square out.statistic + square (kurtosisStatistic xs) ∧
        square (kurtosisStatistic xs) < joint.statistic := by
  have hreflected := skewTest_map_neg_of_varies hlength h
  have hne := skewStatistic_ne_zero hlength h
  refine ⟨_, skewTest_of_varies hlength h, ?_, ?_, ?_, skewStatistic_pos_iff hlength h,
    skewStatistic_neg_iff hlength h, ?_, ?_, normalTest_map_neg xs, ?_⟩
  · intro hm3
    rw [hreflected, skewStatistic_map_neg hlength h hm3, normalTwoSided_eq_of_abs (abs_neg _)]
    rfl
  · intro hm3
    rw [hreflected, skewStatistic_map_neg_of_m3_eq_zero hm3]
    exact ⟨rfl, skewStatistic_of_m3_eq_zero hm3⟩
  · rintro ⟨c, hc⟩
    exact m3_eq_zero_of_symmetric hc
  · rw [TestOutput.clamped, numeral_zero, numeral_one]
  · exact fun htails => pValue_clamped_lt_one htails hne
  · intro joint hjoint
    rw [normalTest_of_varies hlength h] at hjoint
    split at hjoint
    · cases hjoint
    · obtain rfl := Except.ok.inj hjoint
      refine ⟨rfl, lt_add_of_pos_left _ ?_⟩
      rw [square_eq]
      exact mul_self_pos.2 hne

omit [Tails ℝ] in
/-- One value above seven equal ones has a positive score, and its reflection a negative one. -/
theorem skewTest_reflects_outlier :
    let _tails := densityTails
    let xs : List ℝ := [1, 0, 0, 0, 0, 0, 0, 0]
    ∃ out, skewTest xs = .ok out ∧ 0 < out.statistic ∧ out.pValue < 1 ∧
      skewTest (xs.map (-·)) = .ok { out with statistic := -out.statistic } := by
  intro _tails xs
  have hvaries : Varies xs := ⟨1, by simp [xs], 0, by simp [xs], one_ne_zero⟩
  have hm3 : (centralMoments xs).m3 = 21 / 256 := by
    norm_num [centralMoments_eq, averageDeviation, mean_eq, square_eq, xs]
  obtain ⟨out, hout, hskewed, -, -, hpos, -, -, hp, -⟩ := skewTest_reflects (le_refl 8) hvaries
  refine ⟨out, hout, hpos.2 ?_, hp normal_densityTails_lt_half, hskewed ?_⟩
  · rw [hm3]
    norm_num
  · rw [hm3]
    norm_num

omit [Tails ℝ] in
/-- Thirty equidistant values have no skewness.  Their statistic is positive, its p-value is below
one, and reflection keeps both. -/
theorem skewTest_of_symmetric_sample :
    let _tails := densityTails
    let xs : List ℝ := (List.range 30).map fun i : ℕ => (i : ℝ) + 1
    (centralMoments xs).m3 = 0 ∧
      ∃ out, skewTest xs = .ok out ∧ 0 < out.statistic ∧ out.pValue < 1 ∧
        skewTest (xs.map (-·)) = .ok out := by
  intro _tails xs
  have hreverse : (xs.map fun x => 2 * (31 / 2) - x) = xs.reverse := by
    refine List.ext_getElem (by simp [xs]) fun i hi _ => ?_
    have hi' : i < 30 := by simpa [xs] using hi
    rw [List.getElem_reverse]
    simp only [xs, List.getElem_map, List.getElem_range, List.length_map, List.length_range]
    rw [Nat.cast_sub (by omega), Nat.cast_sub (by omega)]
    norm_num
    ring
  have hsymmetric : xs.Perm (xs.map fun x => 2 * (31 / 2) - x) :=
    hreverse ▸ (List.reverse_perm xs).symm
  have hvaries : Varies xs :=
    ⟨1, List.mem_map.2 ⟨0, by simp⟩, 2, List.mem_map.2 ⟨1, by norm_num⟩, by norm_num⟩
  have hm3 := m3_eq_zero_of_symmetric hsymmetric
  have hlength : normalityMinimum ≤ xs.length := by simp [xs, normalityMinimum]
  have hpos := (skewStatistic_pos_iff hlength hvaries).2 hm3.ge
  refine ⟨hm3, _, skewTest_of_varies hlength hvaries, hpos, ?_, ?_⟩
  · exact pValue_clamped_lt_one normal_densityTails_lt_half hpos.ne'
  · rw [skewTest_map_neg_of_varies hlength hvaries, skewStatistic_map_neg_of_m3_eq_zero hm3]

end Test

end StudyAnalysis.Exact
