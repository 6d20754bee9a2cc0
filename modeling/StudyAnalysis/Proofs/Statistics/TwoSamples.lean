/-
**Exchanging two samples.**

Which of two samples comes first is a matter of naming.  In exact arithmetic exchanging them changes
the sign of a t statistic, and replaces a rank statistic by what it lacks to its greatest value; both
leave the size of the standardised statistic, and so the p-value and the degrees of freedom, as they
are.  For paired samples the same follows from their differences, which change their signs; the order
of the pairs does not matter either.

Main definitions:

* `StudyAnalysis.Exact.answer` — what a test says apart from its statistic;
* `StudyAnalysis.Exact.nonzero` — the differences that are not zero;
* `StudyAnalysis.Exact.SameUpToSign` — the same differences in some order, or their negatives.

Main results:

* `StudyAnalysis.Exact.uStatistic_add` — the rank statistics of the two samples add up;
* `StudyAnalysis.Exact.positiveRankSum_add` — so do the rank sums of the two signs;
* `StudyAnalysis.Exact.answer_studentsT_comm`, `StudyAnalysis.Exact.answer_welchT_comm`,
  `StudyAnalysis.Exact.answer_mannWhitneyU_comm` — **two independent samples may be exchanged**;
* `StudyAnalysis.Exact.answer_pairedT_eq`, `StudyAnalysis.Exact.answer_wilcoxonSignedRank_eq` —
  **two paired samples may be exchanged, and their pairs reordered**.
-/

import StudyAnalysis.Proofs.Statistics.Ranks
import StudyAnalysis.Proofs.Statistics.Shape
import StudyAnalysis.Statistics.RankTests

set_option autoImplicit false
set_option relaxedAutoImplicit false

namespace StudyAnalysis.Exact

open Numeric Fallible

/-! ### Statistics of two independent samples -/

section Independent

variable (a b : List ℝ)

theorem pooledVariance_comm : pooledVariance b a = pooledVariance a b := by
  simp only [pooledVariance]
  rw [add_comm (count b : ℝ), add_comm ((count b - _) * variance b)]

theorem welchDf_comm : welchDf b a = welchDf a b := by
  simp only [welchDf]
  rw [add_comm (squaredError b), add_comm (square (squaredError b) / _)]

/-- The statistic of the first sample is the sum of its ranks among the values of both. -/
theorem uStatistic_eq : uStatistic a b =
    (a.map (rankIn (a ++ b))).sum - a.length * (a.length + 1) / 2 := by
  have htake : (ranks (a ++ b)).take a.length = a.map (rankIn (a ++ b)) := by
    rw [ranks_eq, List.map_append, List.take_left' (List.length_map _)]
  rw [uStatistic, htake, sum_eq, count_eq, numeral_one]

/-- **The rank statistics of the two samples add up** to the number of pairs. -/
theorem uStatistic_add : uStatistic a b + uStatistic b a = a.length * b.length := by
  have hperm : (b ++ a).Perm (a ++ b) := List.perm_append_comm
  have hsum := sum_map_rankIn (a ++ b)
  rw [List.map_append, List.sum_append, List.length_append, Nat.cast_add] at hsum
  rw [uStatistic_eq, uStatistic_eq, rankIn_eq_of_perm hperm]
  linarith

theorem uVariance_comm : uVariance b a = uVariance a b := by
  have hperm : (b ++ a).Perm (a ++ b) := List.perm_append_comm
  simp only [uVariance]
  rw [tieCorrection_eq_of_perm hperm, add_comm (count b : ℝ), mul_comm (count b : ℝ)]

end Independent

/-! ### Statistics of differences -/

section Differences

variable {ds ds' : List ℝ}

/-- The rank sum of the positive differences, by counting. -/
theorem positiveRankSum_eq (ds : List ℝ) : positiveRankSum ds =
    ((ds.filter fun d => decide (0 < d)).map fun d => rankIn (ds.map (|·|)) |d|).sum := by
  have hzip : ds.zip (ranks (ds.map Numeric.abs)) =
      ds.map fun d => (d, rankIn (ds.map (|·|)) |d|) := by
    rw [ranks_eq, List.map_map, List.zip_eq_zipWith, List.zipWith_map_right, List.zipWith_self]
    rfl
  rw [positiveRankSum, hzip, List.filter_map, List.map_map, sum_eq, numeral_zero]
  rfl

theorem positiveRankSum_eq_of_perm (h : ds'.Perm ds) : positiveRankSum ds' = positiveRankSum ds := by
  rw [positiveRankSum_eq, positiveRankSum_eq, rankIn_eq_of_perm (h.map _)]
  exact ((h.filter _).map _).sum_eq

theorem map_abs_map_neg (ds : List ℝ) : (ds.map (-·)).map (|·|) = ds.map (|·|) := by
  rw [List.map_map]
  exact List.map_congr_left fun d _ => abs_neg d

/-- **The rank sums of the two signs add up** to the sum of all ranks, if no difference is zero. -/
theorem positiveRankSum_add (hne : ∀ d ∈ ds, d ≠ 0) :
    positiveRankSum ds + positiveRankSum (ds.map (-·)) = ds.length * (ds.length + 1) / 2 := by
  have hnegative : (ds.filter fun d => decide (0 < -d)) = ds.filter fun d => !decide (0 < d) := by
    refine List.filter_congr fun d hd => ?_
    rw [Bool.eq_iff_iff, decide_eq_true_iff, Bool.not_eq_true', decide_eq_false_iff_not,
      Left.neg_pos_iff, not_lt]
    exact ⟨le_of_lt, fun hle => lt_of_le_of_ne hle (hne d hd)⟩
  have hall := sum_map_rankIn (ds.map (|·|))
  have hsigns := ((List.filter_append_perm (fun d => decide (0 < d)) ds).map
    fun d => rankIn (ds.map (|·|)) |d|).sum_eq
  rw [List.map_append, List.sum_append] at hsigns
  rw [List.map_map, List.length_map] at hall
  rw [positiveRankSum_eq, positiveRankSum_eq, map_abs_map_neg, List.filter_map, List.map_map]
  simp only [Function.comp_def, abs_neg] at hall ⊢
  rw [hnegative, hsigns, hall]

/-- The rank sum of the negative differences is what that of the differences lacks to all ranks. -/
theorem positiveRankSum_map_neg (hne : ∀ d ∈ ds, d ≠ 0) : positiveRankSum (ds.map (-·)) =
    ds.length * (ds.length + 1) / 2 - positiveRankSum ds :=
  eq_sub_of_add_eq' (positiveRankSum_add hne)

/-- The differences that are not zero. -/
noncomputable def nonzero (ds : List ℝ) : List ℝ :=
  ds.filter fun d => !(d == 0)

theorem ne_zero_of_mem_nonzero : ∀ d ∈ nonzero ds, d ≠ 0 := by
  intro d hd
  simpa using (List.mem_filter.1 hd).2

theorem nonzero_map_neg (ds : List ℝ) : nonzero (ds.map (-·)) = (nonzero ds).map (-·) := by
  have hneg : ((fun d : ℝ => !(d == 0)) ∘ fun d => -d) = fun d => !(d == 0) := by
    funext d
    rw [Function.comp_apply, Bool.eq_iff_iff, Bool.not_eq_true', Bool.not_eq_true',
      beq_eq_false_iff_ne, beq_eq_false_iff_ne, neg_ne_zero]
  rw [nonzero, List.filter_map, hneg, nonzero]

/-- The same differences in some order, or their negatives in some order. -/
def SameUpToSign (ds ds' : List ℝ) : Prop :=
  ds'.Perm ds ∨ ds'.Perm (ds.map (-·))

namespace SameUpToSign

theorem length_eq (h : SameUpToSign ds ds') : ds'.length = ds.length := by
  rcases h with h | h
  · exact h.length_eq
  · rw [h.length_eq, List.length_map]

theorem mean_eq (h : SameUpToSign ds ds') : mean ds' = mean ds ∨ mean ds' = -mean ds := by
  rcases h with h | h
  · exact .inl (mean_eq_of_perm h)
  · exact .inr (by rw [mean_eq_of_perm h, mean_map_neg])

theorem variance_eq (h : SameUpToSign ds ds') : variance ds' = variance ds := by
  rcases h with h | h
  · exact variance_eq_of_perm h
  · rw [variance_eq_of_perm h, variance_map_neg]

theorem tukeyOutliers_eq (h : SameUpToSign ds ds') : tukeyOutliers ds' = tukeyOutliers ds := by
  rcases h with h | h
  · exact tukeyOutliers_eq_of_perm h
  · rw [tukeyOutliers_eq_of_perm h, tukeyOutliers_map_neg]

/-- The differences that are not zero are the same up to their sign, too. -/
theorem nonzero (h : SameUpToSign ds ds') : SameUpToSign (nonzero ds) (nonzero ds') := by
  rcases h with h | h
  · exact .inl (h.filter _)
  · refine .inr ?_
    rw [← nonzero_map_neg]
    exact h.filter _

theorem signedRankVariance_eq (h : SameUpToSign ds ds') :
    signedRankVariance ds' = signedRankVariance ds := by
  have hcount : (count ds' : ℝ) = count ds := by rw [count_eq, count_eq, h.length_eq]
  have habs : (ds'.map (|·|)).Perm (ds.map (|·|)) := by
    rcases h with h | h
    · exact h.map _
    · rw [← map_abs_map_neg ds]
      exact h.map _
  have hties : tieCorrection (ds'.map Numeric.abs) = tieCorrection (ds.map Numeric.abs) :=
    tieCorrection_eq_of_perm habs
  simp only [signedRankVariance, hcount, hties]

/-- The rank sum of the positive differences stays, or becomes what it lacks to all ranks. -/
theorem positiveRankSum_eq (h : SameUpToSign ds ds') (hne : ∀ d ∈ ds, d ≠ 0) :
    positiveRankSum ds' = positiveRankSum ds ∨
      positiveRankSum ds' = ds.length * (ds.length + 1) / 2 - positiveRankSum ds := by
  rcases h with h | h
  · exact .inl (positiveRankSum_eq_of_perm h)
  · refine .inr ?_
    rw [positiveRankSum_eq_of_perm h, positiveRankSum_map_neg hne]

end SameUpToSign

end Differences

/-! ### Tests -/

/-- What a test says about its null hypothesis: p-value and degrees of freedom; nothing if it cannot
be run. -/
def answer (x : Except SampleError (TestOutput ℝ)) : Option (ℝ × Option ℝ) :=
  x.toOption.map fun out => (out.pValue, out.df)

@[simp] theorem answer_ok (out : TestOutput ℝ) : answer (.ok out) = some (out.pValue, out.df) := rfl

@[simp] theorem answer_error (err : SampleError) : answer (.error err) = none := rfl

/-- Of two requirements the order only decides which failure comes first. -/
theorem answer_require_comm {β : Type} (a b : List β) (n : ℕ)
    {x y : Except SampleError (TestOutput ℝ)} (h : answer x = answer y) :
    answer (do require a n; require b n; x) = answer (do require b n; require a n; y) := by
  simp only [require]
  split <;> split <;> simp [h]

section Tests

variable [Tails ℝ]

theorem studentTwoSided_neg (t df : ℝ) :
    Tails.studentTwoSided (-t) df = Tails.studentTwoSided t df := by
  rw [Tails.studentTwoSided, Tails.studentTwoSided, abs_eq, abs_eq, abs_neg]

theorem normalTwoSided_neg (z : ℝ) : Tails.normalTwoSided (-z) = Tails.normalTwoSided z :=
  normalTwoSided_eq_of_abs (abs_neg z)

/-- A t statistic and its negative have one answer. -/
theorem answer_student_neg (t df : ℝ) :
    answer (do return .clamped (-t) (← Tails.studentTwoSided (-t) df) (some df)) =
      answer (do return .clamped t (← Tails.studentTwoSided t df) (some df)) := by
  rw [studentTwoSided_neg]
  cases Tails.studentTwoSided t df <;> rfl

section Independent

variable (a b : List ℝ)

/-- **Exchanging the samples keeps the answer of Student's test.** -/
theorem answer_studentsT_comm : answer (studentsT b a) = answer (studentsT a b) := by
  rw [studentsT, studentsT]
  refine answer_require_comm b a 2 ?_
  rw [pooledVariance_comm]
  dsimp only
  split
  · rfl
  · have ht : (mean b - mean a) / Numeric.sqrt (pooledVariance a b * (1 / count b + 1 / count a)) =
        -((mean a - mean b) / Numeric.sqrt (pooledVariance a b * (1 / count a + 1 / count b))) := by
      rw [add_comm (1 / count b : ℝ), ← neg_div, neg_sub]
    rw [numeral_one, ht, add_comm (count b : ℝ)]
    exact answer_student_neg _ _

/-- **Exchanging the samples keeps the answer of Welch's test.** -/
theorem answer_welchT_comm : answer (welchT b a) = answer (welchT a b) := by
  rw [welchT, welchT]
  refine answer_require_comm b a 2 ?_
  rw [add_comm (squaredError b), welchDf_comm]
  dsimp only
  split
  · rfl
  · have ht : (mean b - mean a) / Numeric.sqrt (squaredError a + squaredError b) =
        -((mean a - mean b) / Numeric.sqrt (squaredError a + squaredError b)) := by
      rw [← neg_div, neg_sub]
    rw [ht]
    exact answer_student_neg _ _

/-- **Exchanging the samples keeps the answer of the rank-sum test.** -/
theorem answer_mannWhitneyU_comm : answer (mannWhitneyU b a) = answer (mannWhitneyU a b) := by
  rw [mannWhitneyU, mannWhitneyU]
  refine answer_require_comm b a 2 ?_
  rw [uVariance_comm]
  dsimp only
  split
  · rfl
  · have hz : (uStatistic b a - count b * count a / 2) / Numeric.sqrt (uVariance a b) =
        -((uStatistic a b - count a * count b / 2) / Numeric.sqrt (uVariance a b)) := by
      have hadd := uStatistic_add a b
      rw [← neg_div]
      congr 1
      simp only [count_eq]
      linarith
    rw [hz, normalTwoSided_neg]
    rfl

end Independent

section Paired

variable {ds ds' x y x' y' : List ℝ}

omit [Tails ℝ] in
theorem differences_eq (h : x.length = y.length) :
    differences x y = .ok (pairedDifferences x y) := by
  rw [differences, (requireAligned_eq_ok_iff x y).2 h, ok_bind, pure_eq_ok]

omit [Tails ℝ] in
theorem nonzeroDifferences_eq (h : differences x y = .ok ds) :
    nonzeroDifferences x y = .ok (nonzero ds) := by
  rw [nonzeroDifferences, h, ok_bind, pure_eq_ok, nonzero, numeral_zero]

/-- **The paired t-test looks at the differences up to their order and their common sign.** -/
theorem answer_pairedT_eq (hds : differences x y = .ok ds) (hds' : differences x' y' = .ok ds')
    (h : SameUpToSign ds ds') : answer (pairedT x' y') = answer (pairedT x y) := by
  have hcount : (count ds' : ℝ) = count ds := by rw [count_eq, count_eq, h.length_eq]
  rw [pairedT, pairedT, hds, hds', ok_bind, ok_bind, require_eq_of_length h.length_eq,
    h.variance_eq, hcount]
  cases require ds 2 with
  | error err => rfl
  | ok _ =>
      rw [ok_bind, ok_bind]
      dsimp only
      split
      · rfl
      · rcases h.mean_eq with hmean | hmean
        · rw [hmean]
        · rw [hmean, neg_div]
          exact answer_student_neg _ _

/-- **The signed-rank test looks at the differences up to their order and their common sign.** -/
theorem answer_wilcoxonSignedRank_eq (hds : differences x y = .ok ds)
    (hds' : differences x' y' = .ok ds') (h : SameUpToSign ds ds') :
    answer (wilcoxonSignedRank x' y') = answer (wilcoxonSignedRank x y) := by
  have hnonzero := h.nonzero
  have hne : ∀ d ∈ nonzero ds, d ≠ 0 := ne_zero_of_mem_nonzero
  rw [wilcoxonSignedRank, wilcoxonSignedRank, nonzeroDifferences_eq hds, nonzeroDifferences_eq hds',
    ok_bind, ok_bind, numeral_zero]
  generalize nonzero ds = es at hnonzero hne ⊢
  generalize nonzero ds' = es' at hnonzero ⊢
  have hcount : (count es' : ℝ) = count es := by rw [count_eq, count_eq, hnonzero.length_eq]
  rw [require_eq_of_length hnonzero.length_eq, hnonzero.signedRankVariance_eq, hcount]
  cases require es 2 with
  | error err => rfl
  | ok _ =>
      rw [ok_bind, ok_bind]
      dsimp only
      split
      · rfl
      · rcases hnonzero.positiveRankSum_eq hne with ht | ht
        · rw [ht]
        · have hz : (positiveRankSum es' - count es * (count es + 1) / 4) /
                Numeric.sqrt (signedRankVariance es) =
              -((positiveRankSum es - count es * (count es + 1) / 4) /
                Numeric.sqrt (signedRankVariance es)) := by
            rw [← neg_div, ht]
            congr 1
            simp only [count_eq]
            ring
          rw [numeral_one, hz, normalTwoSided_neg]
          rfl

end Paired

end Tests

end StudyAnalysis.Exact
