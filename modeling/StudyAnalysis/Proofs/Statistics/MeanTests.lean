/-
**Tests of two means.**

A sample varies exactly if its squared deviations from the mean add up to more than nothing.
Student's test pools the squared deviations of both samples, and so does the analysis of variance
within its groups.  The squares between two groups are the squared distance of the two means, at the
rate of `n₁ n₂ / (n₁ + n₂)`. So the analysis of variance of two groups is the square of Student's
test, and neither of them exists if neither group varies.

Welch's test estimates the degrees of freedom from the squared errors `A` and `B` of the two means
as `(A + B)² / (A² / (n₁ - 1) + B² / (n₂ - 1))`. As `A² + B² ≤ (A + B)²`, this is never below the
degrees of freedom of the smaller sample, and by the inequality of Cauchy and Schwarz it is never
above those of Student's test.

Main definitions:

* `StudyAnalysis.Exact.Varies` — not all values of a sample are equal;
* `StudyAnalysis.Exact.tScore`, `StudyAnalysis.Exact.welchScore` — the statistics of the tests.

Main results:

* `StudyAnalysis.Exact.squaresAbout_mean_pos_iff` — **a sample varies if its squares do not
  vanish**;
* `StudyAnalysis.Exact.studentsT_eq`, `StudyAnalysis.Exact.welchT_eq`,
  `StudyAnalysis.Exact.oneWayAnova_pair_eq` — the tests in closed form;
* `StudyAnalysis.Exact.oneWayAnova_pair_eq_square` — **the analysis of variance of two groups is the
  square of Student's test**;
* `StudyAnalysis.Exact.le_welchDf`, `StudyAnalysis.Exact.welchDf_le` — the bounds of the estimated
  degrees of freedom;
* `StudyAnalysis.Exact.welchT_df_bounded` — **Welch's test always has a reference distribution**.
-/

import StudyAnalysis.Proofs.Statistics.SumsOfSquares

set_option autoImplicit false
set_option relaxedAutoImplicit false

namespace StudyAnalysis.Exact

open Numeric Fallible

/-! ### Samples that vary -/

section Variation

variable {xs : List ℝ}

/-- Not all values of a sample are equal. -/
def Varies (xs : List ℝ) : Prop :=
  ∃ x ∈ xs, ∃ y ∈ xs, x ≠ y

theorem not_varies_iff : ¬ Varies xs ↔ ∀ x ∈ xs, ∀ y ∈ xs, x = y := by
  simp only [Varies, not_exists, not_and, not_not]

/-- Squares add up to nothing only if there is nothing to square. -/
theorem sum_square_eq_zero_iff {β : Type} {f : β → ℝ} {bs : List β} :
    (bs.map fun b => square (f b)).sum = 0 ↔ ∀ b ∈ bs, f b = 0 :=
  (sum_map_eq_zero_iff fun _ _ => mul_self_nonneg _).trans
    (forall₂_congr fun _ _ => mul_self_eq_zero)

/-- Without squares about a centre all values are the centre. -/
theorem squaresAbout_eq_zero_iff {c : ℝ} : squaresAbout c xs = 0 ↔ ∀ x ∈ xs, x = c :=
  sum_square_eq_zero_iff.trans (forall₂_congr fun _ _ => sub_eq_zero)

/-- The mean of equal values is each of them. -/
theorem mean_eq_of_forall_eq {c : ℝ} (hne : xs ≠ []) (h : ∀ x ∈ xs, x = c) : mean xs = c := by
  have hlength := (cast_length_pos hne).ne'
  rw [List.eq_replicate_of_mem h, mean_eq, List.sum_replicate, List.length_replicate, nsmul_eq_mul,
    mul_div_cancel_left₀ _ hlength]

/-- **A sample varies exactly if its squares about the mean do not vanish.** -/
theorem squaresAbout_mean_pos_iff : 0 < squaresAbout (mean xs) xs ↔ Varies xs := by
  rw [(squaresAbout_nonneg _ _).lt_iff_ne', ne_eq, squaresAbout_eq_zero_iff, ← not_iff_not, not_not,
    not_varies_iff]
  constructor
  · intro h x hx y hy
    rw [h x hx, h y hy]
  · intro h x hx
    exact (mean_eq_of_forall_eq (List.ne_nil_of_mem hx) fun y hy => h y hy x hx).symm

/-- The degrees of freedom of one sample. -/
theorem length_sub_one_pos {β : Type} {xs : List β} (h : 2 ≤ xs.length) :
    (0 : ℝ) < xs.length - 1 :=
  sub_pos.2 (Nat.one_lt_cast.2 h)

theorem variance_eq_div (h : 2 ≤ xs.length) :
    variance xs = squaresAbout (mean xs) xs / (xs.length - 1) := by
  rw [variance_eq, if_neg (not_lt.2 h), Nat.cast_sub (by omega), Nat.cast_one]
  rfl

theorem squaredError_eq_div (h : 2 ≤ xs.length) :
    squaredError xs = squaresAbout (mean xs) xs / ((xs.length - 1) * xs.length) := by
  rw [squaredError, variance_eq_div h, count_eq, div_div]

theorem squaredError_nonneg (h : 2 ≤ xs.length) : 0 ≤ squaredError xs := by
  rw [squaredError_eq_div h]
  exact div_nonneg (squaresAbout_nonneg _ _)
    (mul_nonneg (length_sub_one_pos h).le (Nat.cast_nonneg _))

/-- **The mean of a sample has an error exactly if the sample varies.** -/
theorem squaredError_pos_iff (h : 2 ≤ xs.length) : 0 < squaredError xs ↔ Varies xs := by
  have hlength : (0 : ℝ) < xs.length := Nat.cast_pos.2 (by omega)
  rw [squaredError_eq_div h, div_pos_iff_of_pos_right (mul_pos (length_sub_one_pos h) hlength),
    squaresAbout_mean_pos_iff]

end Variation

/-! ### Two samples of at least two values -/

section Pooled

variable {a b : List ℝ}

/-- The squares about the means of either sample, which Student's test and the analysis of variance
share. -/
noncomputable def pooledSquares (a b : List ℝ) : ℝ :=
  squaresAbout (mean a) a + squaresAbout (mean b) b

theorem pooledSquares_pos_iff : 0 < pooledSquares a b ↔ Varies a ∨ Varies b := by
  have ha := squaresAbout_nonneg (mean a) a
  have hb := squaresAbout_nonneg (mean b) b
  rw [pooledSquares, ← squaresAbout_mean_pos_iff, ← squaresAbout_mean_pos_iff]
  constructor
  · intro h
    by_contra hnone
    push Not at hnone
    linarith
  · rintro (h | h) <;> linarith

/-- The degrees of freedom of both samples. -/
theorem length_add_length_sub_two_pos (ha : 2 ≤ a.length) (hb : 2 ≤ b.length) :
    (0 : ℝ) < a.length + b.length - 2 := by
  have ha' := length_sub_one_pos ha
  have hb' := length_sub_one_pos hb
  linarith

theorem pooledVariance_eq (ha : 2 ≤ a.length) (hb : 2 ≤ b.length) :
    pooledVariance a b = pooledSquares a b / (a.length + b.length - 2) := by
  rw [pooledVariance, variance_eq_div ha, variance_eq_div hb, count_eq, count_eq, numeral_one,
    mul_div_cancel₀ _ (length_sub_one_pos ha).ne', mul_div_cancel₀ _ (length_sub_one_pos hb).ne']
  rfl

theorem pooledVariance_pos_iff (ha : 2 ≤ a.length) (hb : 2 ≤ b.length) :
    0 < pooledVariance a b ↔ Varies a ∨ Varies b := by
  rw [pooledVariance_eq ha hb,
    div_pos_iff_of_pos_right (length_add_length_sub_two_pos ha hb), pooledSquares_pos_iff]

/-- **The squares between two groups** are the squared distance of their means, at a rate that the
sizes determine. -/
theorem sumsOfSquares_fst_pair (ha : a ≠ []) (hb : b ≠ []) : (sumsOfSquares [a, b]).1 =
    a.length * b.length / (a.length + b.length) * square (mean a - mean b) := by
  have ha' := cast_length_pos ha
  have hb' := cast_length_pos hb
  have hgrand : mean [a, b].flatten =
      (a.length * mean a + b.length * mean b) / (a.length + b.length) := by
    rw [length_mul_mean, length_mul_mean, mean_eq, List.flatten_cons, List.flatten_singleton,
      List.sum_append, List.length_append, Nat.cast_add]
  rw [sumsOfSquares_fst, hgrand]
  simp only [List.map_cons, List.map_nil, List.sum_cons, List.sum_nil, betweenTerm, count_eq,
    square_eq]
  field_simp
  ring

theorem sumsOfSquares_snd_pair (a b : List ℝ) : (sumsOfSquares [a, b]).2 = pooledSquares a b := by
  simp only [sumsOfSquares_snd, List.map_cons, List.map_nil, List.sum_cons, List.sum_nil, add_zero,
    pooledSquares]

end Pooled

/-! ### The tests -/

section Tests

variable [Tails ℝ] {a b : List ℝ}

/-- The probability of a Student number at least as far from zero. -/
noncomputable def studentTail (t df : ℝ) : ℝ :=
  2 * Tails.student |t| df

theorem studentTwoSided_eq {t df : ℝ} (h : 0 < df) :
    Tails.studentTwoSided t df = .ok (studentTail t df) := by
  rw [Tails.studentTwoSided, numeral_zero, if_pos h]
  rfl

/-- The difference of two means in units of its pooled standard error. -/
noncomputable def tScore (a b : List ℝ) : ℝ :=
  (mean a - mean b) / Real.sqrt (pooledVariance a b * (1 / a.length + 1 / b.length))

/-- The difference of two means in units of its standard error. -/
noncomputable def welchScore (a b : List ℝ) : ℝ :=
  (mean a - mean b) / Real.sqrt (squaredError a + squaredError b)

/-- Student's test of two samples that are large enough. -/
theorem studentsT_eq (ha : 2 ≤ a.length) (hb : 2 ≤ b.length) : studentsT a b =
    if pooledVariance a b ≤ 0 then .error (.degenerate .constantGroups)
    else
      let df : ℝ := a.length + b.length - 2
      .ok (.clamped (tScore a b) (studentTail (tScore a b) df) (some df)) := by
  rw [studentsT, (require_eq_ok_iff a 2).2 ha, (require_eq_ok_iff b 2).2 hb, ok_bind, ok_bind,
    numeral_zero, numeral_one]
  dsimp only
  split
  · rfl
  · exact congrArg (· >>= _) (studentTwoSided_eq (length_add_length_sub_two_pos ha hb))

/-- The analysis of variance of two groups that are large enough. -/
theorem oneWayAnova_pair_eq (ha : 2 ≤ a.length) (hb : 2 ≤ b.length) : oneWayAnova [a, b] =
    if pooledVariance a b ≤ 0 then .error (.degenerate .constantWithinGroups)
    else .ok (.clamped (tScore a b ^ 2)
      (Tails.fRatio (tScore a b ^ 2) 1 (a.length + b.length - 2)) (some 1)) := by
  have hne : a ≠ [] := List.ne_nil_of_length_pos (by omega)
  have hne' : b ≠ [] := List.ne_nil_of_length_pos (by omega)
  have ha' := cast_length_pos hne
  have hb' := cast_length_pos hne'
  have hdf := length_add_length_sub_two_pos ha hb
  have hrequire : requireGroups [a, b] = .ok () :=
    requireGroups_eq_ok_iff.2 ⟨le_refl 2, by simp [ha, hb]⟩
  have hdf1 : (count [a, b] - @OfNat.ofNat ℝ 1 (instNumeral 1) : ℝ) = 1 := by
    rw [count_eq, numeral_one]
    norm_num
  have hdf2 : (ofNat [a, b].flatten.length - count [a, b] : ℝ) = a.length + b.length - 2 := by
    rw [ofNat_eq, count_eq]
    norm_num
  have hwithin : (sumsOfSquares [a, b]).2 / (a.length + b.length - 2) = pooledVariance a b := by
    rw [sumsOfSquares_snd_pair, pooledVariance_eq ha hb]
  have hstatistic (hpos : 0 < pooledVariance a b) :
      (sumsOfSquares [a, b]).1 / 1 / pooledVariance a b = tScore a b ^ 2 := by
    rw [tScore, div_pow, Real.sq_sqrt (by positivity), sumsOfSquares_fst_pair hne hne', square_eq]
    field_simp
    ring
  rw [oneWayAnova, hrequire, ok_bind]
  dsimp only
  rw [hdf1, hdf2, hwithin, numeral_zero]
  split
  · rfl
  · rename_i hpos
    rw [hstatistic (not_le.1 hpos)]
    rfl

/-- Both tests of two samples ask for the same sizes, in the same order. -/
theorem short_pair (h : ¬ (2 ≤ a.length ∧ 2 ≤ b.length)) : ∃ got,
    oneWayAnova [a, b] = .error (.insufficientData 2 got) ∧
      studentsT a b = .error (.insufficientData 2 got) := by
  by_cases ha : 2 ≤ a.length
  · have hb : b.length < 2 := not_le.1 fun hb => h ⟨ha, hb⟩
    have hrequire : requireGroups [a, b] = .error (.insufficientData 2 b.length) := by
      show (require a 2 >>= fun _ => require b 2 >>= fun _ => pure ()) = _
      rw [(require_eq_ok_iff a 2).2 ha, ok_bind, require, if_pos hb, error_bind]
    refine ⟨b.length, by rw [oneWayAnova, hrequire, error_bind], ?_⟩
    rw [studentsT, (require_eq_ok_iff a 2).2 ha, ok_bind, require, if_pos hb, error_bind]
  · have hrequire : requireGroups [a, b] = .error (.insufficientData 2 a.length) := by
      show (require a 2 >>= fun _ => require b 2 >>= fun _ => pure ()) = _
      rw [require, if_pos (not_le.1 ha), error_bind]
    refine ⟨a.length, by rw [oneWayAnova, hrequire, error_bind], ?_⟩
    rw [studentsT, require, if_pos (not_le.1 ha), error_bind]

/-- **The analysis of variance of two groups is the square of Student's test**, for all samples:
both fail for want of observations, both are degenerate, since neither sample varies, or both
succeed. -/
theorem oneWayAnova_pair_eq_square (a b : List ℝ) :
    (∀ needed got, oneWayAnova [a, b] = .error (.insufficientData needed got) ↔
      studentsT a b = .error (.insufficientData needed got)) ∧
    ((∃ cause, oneWayAnova [a, b] = .error (.degenerate cause)) ↔
      ∃ cause, studentsT a b = .error (.degenerate cause)) ∧
    ((∃ cause, studentsT a b = .error (.degenerate cause)) ↔
      2 ≤ a.length ∧ 2 ≤ b.length ∧ ¬ Varies a ∧ ¬ Varies b) ∧
    ((∀ needed got, studentsT a b ≠ .error (.insufficientData needed got)) →
      (∀ cause, studentsT a b ≠ .error (.degenerate cause)) →
      ∃ f t, oneWayAnova [a, b] = .ok f ∧ studentsT a b = .ok t ∧
        f.statistic = t.statistic ^ 2) := by
  by_cases hsizes : 2 ≤ a.length ∧ 2 ≤ b.length
  · obtain ⟨ha, hb⟩ := hsizes
    have hvaries : ¬ pooledVariance a b ≤ 0 ↔ Varies a ∨ Varies b := by
      rw [not_le, pooledVariance_pos_iff ha hb]
    rw [oneWayAnova_pair_eq ha hb, studentsT_eq ha hb]
    by_cases hspread : pooledVariance a b ≤ 0
    · have hconstant : ¬ Varies a ∧ ¬ Varies b := not_or.1 (hvaries.not.1 (not_not.2 hspread))
      simp only [if_pos hspread]
      exact ⟨by simp, by simp, by simp [ha, hb, hconstant],
        fun _ hdefined => absurd rfl (hdefined .constantGroups)⟩
    · have hconstant : ¬ (¬ Varies a ∧ ¬ Varies b) := by
        rw [← not_or, not_not]
        exact hvaries.1 hspread
      simp only [if_neg hspread]
      exact ⟨by simp, by simp, by simp [hconstant], fun _ _ => ⟨_, _, rfl, rfl, rfl⟩⟩
  · obtain ⟨got, hanova, hstudent⟩ := short_pair hsizes
    rw [hanova, hstudent]
    refine ⟨by simp, by simp, ?_, fun henough => absurd rfl (henough 2 got)⟩
    constructor
    · rintro ⟨cause, herror⟩
      cases herror
    · rintro ⟨ha, hb, -⟩
      exact absurd ⟨ha, hb⟩ hsizes

omit [Tails ℝ] in
/-- Two means that are six apart have a standard error of 5 / 3, and a score of -18 / 5. -/
theorem oneWayAnova_pair_of_five :
    let _tails := densityTails
    let a : List ℝ := [1, 3]
    let b : List ℝ := [6, 8, 10]
    ∃ f t, oneWayAnova [a, b] = .ok f ∧ studentsT a b = .ok t ∧ t.statistic = -18 / 5 ∧
      f.statistic = 324 / 25 := by
  intro _tails a b
  have ha : 2 ≤ a.length := le_refl 2
  have hb : 2 ≤ b.length := Nat.le_succ 2
  have hvaries : Varies a := ⟨1, by simp [a], 3, by simp [a], by norm_num⟩
  have hmeans : mean a = 2 ∧ mean b = 8 := by
    constructor <;> norm_num [mean_eq, a, b]
  have hpooled : pooledVariance a b = 10 / 3 := by
    rw [pooledVariance_eq ha hb, pooledSquares, hmeans.1, hmeans.2]
    norm_num [squaresAbout, square_eq, a, b]
  have hscore : tScore a b = -18 / 5 := by
    have hroot : (10 / 3 * (1 / a.length + 1 / b.length) : ℝ) = (5 / 3) ^ 2 := by norm_num [a, b]
    rw [tScore, hpooled, hmeans.1, hmeans.2, hroot, Real.sqrt_sq (by norm_num)]
    norm_num
  have hok := studentsT_eq ha hb
  rw [if_neg (not_le.2 ((pooledVariance_pos_iff ha hb).2 (.inl hvaries)))] at hok
  obtain ⟨-, -, -, hsquare⟩ := oneWayAnova_pair_eq_square a b
  obtain ⟨f, t, hf, ht, hft⟩ := hsquare (by simp [hok]) (by simp [hok])
  obtain rfl := Except.ok.inj (ht.symm.trans hok)
  have ht' : (TestOutput.clamped (tScore a b) (studentTail (tScore a b) (a.length + b.length - 2))
      (some (a.length + b.length - 2))).statistic = -18 / 5 := hscore
  refine ⟨f, _, hf, ht, ht', ?_⟩
  rw [hft, ht']
  norm_num

/-! ### Estimated degrees of freedom -/

section Welch

variable (ha : 2 ≤ a.length) (hb : 2 ≤ b.length) (hvaries : Varies a ∨ Varies b)

include ha hb hvaries

omit [Tails ℝ] in
theorem squaredError_add_pos : 0 < squaredError a + squaredError b := by
  have ha' := squaredError_nonneg ha
  have hb' := squaredError_nonneg hb
  rcases hvaries with h | h
  · exact add_pos_of_pos_of_nonneg ((squaredError_pos_iff ha).2 h) hb'
  · exact add_pos_of_nonneg_of_pos ha' ((squaredError_pos_iff hb).2 h)

omit [Tails ℝ] in
/-- The denominator of the estimate is not zero, also if one of the samples does not vary. -/
theorem welchDenominator_pos : 0 < square (squaredError a) / ((a.length : ℝ) - 1) +
    square (squaredError b) / ((b.length : ℝ) - 1) := by
  have hp := length_sub_one_pos ha
  have hq := length_sub_one_pos hb
  have ha' : 0 ≤ square (squaredError a) / ((a.length : ℝ) - 1) :=
    div_nonneg (mul_self_nonneg _) hp.le
  have hb' : 0 ≤ square (squaredError b) / ((b.length : ℝ) - 1) :=
    div_nonneg (mul_self_nonneg _) hq.le
  rcases hvaries with h | h
  · have hpos := (squaredError_pos_iff ha).2 h
    exact add_pos_of_pos_of_nonneg (div_pos (mul_pos hpos hpos) hp) hb'
  · have hpos := (squaredError_pos_iff hb).2 h
    exact add_pos_of_nonneg_of_pos ha' (div_pos (mul_pos hpos hpos) hq)

omit [Tails ℝ] in
/-- **The estimate is never below the degrees of freedom of the smaller sample**, as the squared sum
of the errors is at least the sum of their squares. -/
theorem le_welchDf : min (a.length : ℝ) b.length - 1 ≤ welchDf a b := by
  have hp := length_sub_one_pos ha
  have hq := length_sub_one_pos hb
  have hA := squaredError_nonneg ha
  have hB := squaredError_nonneg hb
  rw [welchDf, count_eq, count_eq, numeral_one, ← min_sub_sub_right,
    le_div_iff₀ (welchDenominator_pos ha hb hvaries)]
  have hdenominator := welchDenominator_pos ha hb hvaries
  generalize squaredError a = A at *
  generalize squaredError b = B at *
  generalize (a.length : ℝ) - 1 = p at *
  generalize (b.length : ℝ) - 1 = q at *
  have hleft : min p q * (square A / p) ≤ square A := by
    calc min p q * (square A / p) ≤ p * (square A / p) :=
          mul_le_mul_of_nonneg_right (min_le_left p q) (div_nonneg (mul_self_nonneg A) hp.le)
      _ = square A := mul_div_cancel₀ _ hp.ne'
  have hright : min p q * (square B / q) ≤ square B := by
    calc min p q * (square B / q) ≤ q * (square B / q) :=
          mul_le_mul_of_nonneg_right (min_le_right p q) (div_nonneg (mul_self_nonneg B) hq.le)
      _ = square B := mul_div_cancel₀ _ hq.ne'
  calc min p q * (square A / p + square B / q) ≤ square A + square B := by
        rw [mul_add]
        exact add_le_add hleft hright
    _ ≤ square (A + B) := by
        simp only [square_eq]
        nlinarith [mul_nonneg hA hB]

omit [Tails ℝ] in
/-- **The estimate is never above the degrees of freedom of both samples**: what it lacks to them is
a square. -/
theorem welchDf_le : welchDf a b ≤ a.length + b.length - 2 := by
  have hp := length_sub_one_pos ha
  have hq := length_sub_one_pos hb
  have hdf : (a.length + b.length - 2 : ℝ) = (a.length - 1) + (b.length - 1) := by ring
  rw [welchDf, count_eq, count_eq, numeral_one, hdf,
    div_le_iff₀ (welchDenominator_pos ha hb hvaries)]
  generalize squaredError a = A
  generalize squaredError b = B
  generalize (a.length : ℝ) - 1 = p at *
  generalize (b.length : ℝ) - 1 = q at *
  have hgap : (p + q) * (square A / p + square B / q) - square (A + B) =
      square (q * A - p * B) / (p * q) := by
    simp only [square_eq]
    field_simp
    ring
  rw [← sub_nonneg, hgap]
  exact div_nonneg (mul_self_nonneg _) (mul_pos hp hq).le

omit [Tails ℝ] in
theorem welchDf_pos : 0 < welchDf a b :=
  div_pos (mul_self_pos.2 (squaredError_add_pos ha hb hvaries).ne') (by
    rw [count_eq, count_eq, numeral_one]
    exact welchDenominator_pos ha hb hvaries)

/-- Welch's test of two samples that are large enough and do not both lack variation. -/
theorem welchT_eq : welchT a b = .ok (.clamped (welchScore a b)
    (studentTail (welchScore a b) (welchDf a b)) (some (welchDf a b))) := by
  have herror := squaredError_add_pos ha hb hvaries
  rw [welchT, (require_eq_ok_iff a 2).2 ha, (require_eq_ok_iff b 2).2 hb, ok_bind, ok_bind,
    numeral_zero]
  dsimp only
  rw [if_neg (not_le.2 herror)]
  exact congrArg (· >>= _) (studentTwoSided_eq (welchDf_pos ha hb hvaries))

omit [Tails ℝ] hvaries in
/-- Samples of one size have one standard error, pooled or not. -/
theorem welchScore_eq_tScore (hlength : a.length = b.length) : welchScore a b = tScore a b := by
  have herror : squaredError a + squaredError b =
      pooledVariance a b * (1 / a.length + 1 / b.length) := by
    have hp := (length_sub_one_pos hb).ne'
    have hn : (b.length : ℝ) ≠ 0 := Nat.cast_ne_zero.2 (by omega)
    have hdf : (b.length + b.length - 2 : ℝ) = 2 * (b.length - 1) := by ring
    rw [squaredError_eq_div ha, squaredError_eq_div hb, pooledVariance_eq ha hb, pooledSquares,
      hlength, hdf]
    field_simp
    ring
  rw [welchScore, herror, tScore]

/-- **Welch's test of samples that do not both lack variation always has a reference distribution**:
its degrees of freedom lie between those of the smaller sample and those of both.  For samples of
one size, its statistic is that of Student's test. -/
theorem welchT_df_bounded : ∃ out df, welchT a b = .ok out ∧ out.df = some df ∧
    df ∈ Set.Icc (min (a.length : ℝ) b.length - 1) (a.length + b.length - 2) ∧
    (∀ t, ∃ p, Tails.studentTwoSided t df = .ok p) ∧
    (a.length = b.length → ∃ out', studentsT a b = .ok out' ∧ out.statistic = out'.statistic) := by
  refine ⟨_, _, welchT_eq ha hb hvaries, rfl,
    ⟨le_welchDf ha hb hvaries, welchDf_le ha hb hvaries⟩,
    fun t => ⟨_, studentTwoSided_eq (welchDf_pos ha hb hvaries)⟩, fun hlength => ?_⟩
  have hok := studentsT_eq ha hb
  rw [if_neg (not_le.2 ((pooledVariance_pos_iff ha hb).2 hvaries))] at hok
  exact ⟨_, hok, welchScore_eq_tScore ha hb hlength⟩

end Welch

omit [Tails ℝ] in
/-- If only one of two samples varies, the estimate is the degrees of freedom of that one: here the
least possible, although Student's test has twice as many. -/
theorem welchT_df_of_constant_and_varying :
    let _tails := densityTails
    let a : List ℝ := [1, 1]
    let b : List ℝ := [3, 5]
    ∃ out out', welchT a b = .ok out ∧ studentsT a b = .ok out' ∧ out.df = some 1 ∧
      out.df = some (min (a.length : ℝ) b.length - 1) ∧ out'.df = some 2 ∧ out.statistic = -3 ∧
      out'.statistic = -3 := by
  intro _tails a b
  have ha : 2 ≤ a.length := le_refl 2
  have hb : 2 ≤ b.length := le_refl 2
  have hvaries : Varies b := ⟨3, by simp [b], 5, by simp [b], by norm_num⟩
  have hmeans : mean a = 1 ∧ mean b = 4 := by
    constructor <;> norm_num [mean_eq, a, b]
  have herrors : squaredError a = 0 ∧ squaredError b = 1 := by
    rw [squaredError_eq_div ha, squaredError_eq_div hb, hmeans.1, hmeans.2]
    constructor <;> norm_num [squaresAbout, square_eq, a, b]
  have hdf : welchDf a b = 1 := by
    rw [welchDf, herrors.1, herrors.2, count_eq, count_eq, numeral_one]
    norm_num [square_eq, a, b]
  have hscore : welchScore a b = -3 := by
    rw [welchScore, herrors.1, herrors.2, hmeans.1, hmeans.2]
    norm_num
  obtain ⟨out, df, hout, hsome, -, -, hstudent⟩ := welchT_df_bounded ha hb (.inr hvaries)
  obtain ⟨out', hout', hstatistic⟩ := hstudent rfl
  have hpooled : ¬ pooledVariance a b ≤ 0 :=
    not_le.2 ((pooledVariance_pos_iff ha hb).2 (.inr hvaries))
  obtain rfl := Except.ok.inj (hout.symm.trans (welchT_eq ha hb (.inr hvaries)))
  have hok' := hout'
  rw [studentsT_eq ha hb, if_neg hpooled] at hok'
  obtain rfl := Except.ok.inj hok'
  refine ⟨_, _, hout, hout', congrArg some hdf, ?_, ?_, hscore, hstatistic.symm.trans hscore⟩
  · refine congrArg some (hdf.trans ?_)
    norm_num [a, b]
  · refine congrArg some ?_
    norm_num [a, b]

end Tests

end StudyAnalysis.Exact
