/-
**Signed ranks.**

The signed-rank test ranks the differences of two paired samples by their size, leaves out those
that are zero, and adds up the ranks of the positive ones.  In exact arithmetic the variance of that
sum is a quarter of the sum of the squared ranks, so that it never vanishes; the sum lies between
zero and the sum of all ranks, and what it lacks to the latter is the sum for the exchanged samples.

Main results:

* `StudyAnalysis.Exact.signedRankVariance_eq` — **the variance is a quarter of the squared ranks**;
* `StudyAnalysis.Exact.positiveRankSum_le` — the statistic is at most the sum of all ranks;
* `StudyAnalysis.Exact.wilcoxonSignedRank_eq` — the test in closed form, which never fails on enough
  differences;
* `StudyAnalysis.Exact.countP_zip_ne` — the pairs of different values are the differences that are
  not zero.
-/

import StudyAnalysis.Proofs.Statistics.SumsOfSquares

set_option autoImplicit false
set_option relaxedAutoImplicit false

namespace StudyAnalysis.Exact

open Numeric Fallible

/-! ### The statistic and its variance -/

section Statistic

variable {ds : List ℝ}

/-- **The variance of the signed-rank statistic** is a quarter of the sum of the squared ranks of
the absolute differences, however many of them are tied. -/
theorem signedRankVariance_eq (ds : List ℝ) : signedRankVariance ds =
    ((ranks (ds.map Numeric.abs)).map square).sum / 4 := by
  rw [signedRankVariance, ranks_eq, List.map_map, Function.comp_def, sum_square_rankIn,
    List.length_map, count_eq, numeral_one]
  ring

/-- The variance never vanishes. -/
theorem signedRankVariance_pos (hne : ds ≠ []) : 0 < signedRankVariance ds := by
  have hsquares : 0 < ((ranks (ds.map Numeric.abs)).map square).sum := by
    refine List.sum_pos _ (fun t ht => ?_) ?_
    · obtain ⟨r, hr, rfl⟩ := List.mem_map.1 ht
      rw [ranks_eq] at hr
      obtain ⟨d, -, rfl⟩ := List.mem_map.1 hr
      exact mul_pos (rankIn_pos _ _) (rankIn_pos _ _)
    · simpa [ranks_eq] using hne
  rw [signedRankVariance_eq]
  linarith

theorem positiveRankSum_nonneg (ds : List ℝ) : 0 ≤ positiveRankSum ds := by
  rw [positiveRankSum_eq]
  refine List.sum_nonneg fun t ht => ?_
  obtain ⟨d, -, rfl⟩ := List.mem_map.1 ht
  exact (rankIn_pos _ _).le

/-- **The statistic is at most the sum of all ranks.** -/
theorem positiveRankSum_le (hne : ∀ d ∈ ds, d ≠ 0) :
    positiveRankSum ds ≤ ds.length * (ds.length + 1) / 2 := by
  rw [← positiveRankSum_add hne]
  exact le_add_of_nonneg_right (positiveRankSum_nonneg _)

end Statistic

/-! ### The effect size -/

section EffectSize

variable {n : ℕ}

theorem matchedRankBiserial_eq (hn : 0 < n) (t : ℝ) :
    matchedRankBiserial t n = 2 * t / (n * (n + 1) / 2) - 1 := by
  have htotal : (0 : ℝ) < n * (n + 1) / 2 := by positivity
  rw [matchedRankBiserial]
  simp only [ofNat_eq, numeral_zero, numeral_one]
  rw [if_neg (not_le.2 htotal)]

/-- **The effect size of the signed-rank test** lies between minus one and one. -/
theorem matchedRankBiserial_mem_Icc (hn : 0 < n) {t : ℝ} (h0 : 0 ≤ t)
    (h1 : t ≤ n * (n + 1) / 2) : matchedRankBiserial t n ∈ Set.Icc (-1) 1 := by
  have htotal : (0 : ℝ) < n * (n + 1) / 2 := by positivity
  rw [matchedRankBiserial_eq hn, Set.mem_Icc, le_sub_iff_add_le, sub_le_iff_le_add,
    le_div_iff₀ htotal, div_le_iff₀ htotal]
  constructor <;> linarith

/-- **The effect size changes its sign** when the statistic becomes what it lacks to all ranks. -/
theorem matchedRankBiserial_sub (hn : 0 < n) (t : ℝ) :
    matchedRankBiserial (n * (n + 1) / 2 - t) n = -matchedRankBiserial t n := by
  have hn' : (n : ℝ) ≠ 0 := Nat.cast_ne_zero.2 hn.ne'
  have hsucc : (n : ℝ) + 1 ≠ 0 := Nat.cast_add_one_ne_zero n
  rw [matchedRankBiserial_eq hn, matchedRankBiserial_eq hn]
  field_simp
  ring

end EffectSize

/-! ### The test -/

section Test

variable {x y : List ℝ}

/-- Exchanging the samples changes the signs of their differences. -/
theorem pairedDifferences_swap (x y : List ℝ) :
    pairedDifferences y x = (pairedDifferences x y).map (-·) := by
  rw [pairedDifferences, pairedDifferences, List.map_zipWith, List.zipWith_comm]
  simp only [neg_sub]

theorem nonzero_swap (x y : List ℝ) : nonzero (pairedDifferences y x) =
    (nonzero (pairedDifferences x y)).map (-·) := by
  rw [pairedDifferences_swap, nonzero_map_neg]

/-- **Two values are different exactly if their difference is not zero**, so that both ways to count
the pairs of different values agree. -/
theorem countP_zip_ne (x y : List ℝ) : (x.zip y).countP (fun p => !(p.1 == p.2)) =
    (nonzero (pairedDifferences x y)).length := by
  have hzip : pairedDifferences x y = (x.zip y).map fun p => p.1 - p.2 := by
    rw [List.map_zip_eq_zipWith]
    rfl
  rw [nonzero, ← List.countP_eq_length_filter, hzip, List.countP_map]
  refine List.countP_congr fun p _ => ?_
  simp [sub_eq_zero]

/-- The standardised signed-rank statistic. -/
noncomputable def signedRankScore (ds : List ℝ) : ℝ :=
  (positiveRankSum ds - ds.length * (ds.length + 1) / 4) / Real.sqrt (signedRankVariance ds)

variable [Tails ℝ]

/-- **The signed-rank test of enough differences can be computed.** -/
theorem wilcoxonSignedRank_eq (h : x.length = y.length)
    (hn : 2 ≤ (nonzero (pairedDifferences x y)).length) : wilcoxonSignedRank x y =
      let ds := nonzero (pairedDifferences x y)
      .ok (.clamped (positiveRankSum ds) (Tails.normalTwoSided (signedRankScore ds)) none) := by
  have hne : nonzero (pairedDifferences x y) ≠ [] := List.ne_nil_of_length_pos (by omega)
  have hspread := not_le.2 (signedRankVariance_pos hne)
  rw [wilcoxonSignedRank, nonzeroDifferences_eq (differences_eq h), ok_bind,
    (require_eq_ok_iff _ 2).2 hn, ok_bind, numeral_zero, numeral_one]
  exact if_neg hspread

/-- Exchanging the samples keeps the p-value. -/
theorem answer_wilcoxonSignedRank_swap (h : x.length = y.length) :
    answer (wilcoxonSignedRank y x) = answer (wilcoxonSignedRank x y) :=
  answer_wilcoxonSignedRank_eq (differences_eq h) (differences_eq h.symm)
    (.inr (List.Perm.of_eq (pairedDifferences_swap x y)))

end Test

end StudyAnalysis.Exact
