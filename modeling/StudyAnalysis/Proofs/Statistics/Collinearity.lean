/-
**Perfect correlation.**

The coefficient of correlation divides the sum of the products of two variables' deviations by the
root of both sums of squares.  By the inequality of Cauchy and Schwarz it lies between minus one and
one, so that clamping it does nothing.  What the inequality lacks to an equality is the sum of the
squared residuals from the line of the slope `∑ dx dy / ∑ dx²`; so the coefficient is one or minus
one exactly if all points lie on a line that rises or falls.

The same holds of ranks.  A line that rises keeps the order of what it maps, and the ranks of ranks
are the ranks themselves; so ranks that lie on such a line are equal.  A line that falls reverses
the order, and ranks on it are the ranks counted from the other end.

Main definitions:

* `StudyAnalysis.Exact.OnLine` — points on a line of a given slope;
* `StudyAnalysis.Exact.productMoment` — the coefficient of correlation;
* `StudyAnalysis.Exact.CertainIff` — a test answers a p-value of zero in one case, and asks the
  reference distribution in every other.

Main results:

* `StudyAnalysis.Exact.correlation_eq_error_iff` — only constant variables have no correlation;
* `StudyAnalysis.Exact.square_productSum_le` — **the clamp does nothing**;
* `StudyAnalysis.Exact.productMoment_eq_one_iff`, `StudyAnalysis.Exact.productMoment_eq_neg_one_iff`
  — **perfect correlation is collinearity**;
* `StudyAnalysis.Exact.ranks_ranks`, `StudyAnalysis.Exact.ranks_map_neg` — ranks of ranks and of
  reflected values;
* `StudyAnalysis.Exact.correlation_perfect_iff_collinear` — **when the tests of correlation are
  certain**.
-/

import StudyAnalysis.Proofs.Statistics.Concordance
import StudyAnalysis.Proofs.Statistics.MeanTests
import StudyAnalysis.Proofs.Statistics.UnitFreeTests

set_option autoImplicit false
set_option relaxedAutoImplicit false

namespace StudyAnalysis.Exact

open Numeric Fallible

/-! ### Points on a line -/

section Lines

/-- All points lie on one line of a slope. -/
def OnLine (slope : ℝ) (points : List (ℝ × ℝ)) : Prop :=
  ∃ height, ∀ p ∈ points, p.2 = slope * p.1 + height

variable {x y : List ℝ} {s : ℝ}

/-- A variable is a function of another one if each of its values is. -/
theorem forall_mem_zip_iff {f : ℝ → ℝ} (h : x.length = y.length) :
    (∀ p ∈ x.zip y, p.2 = f p.1) ↔ y = x.map f := by
  constructor
  · intro hall
    calc y = (x.zip y).map (·.2) := (List.map_snd_zip h.ge).symm
      _ = ((x.zip y).map (·.1)).map f := by
          rw [List.map_map]
          exact List.map_congr_left hall
      _ = x.map f := by rw [List.map_fst_zip h.le]
  · rintro rfl p hp
    rw [List.zip_map_right, List.mem_map] at hp
    obtain ⟨⟨u, v⟩, hmem, rfl⟩ := hp
    rw [List.zip_eq_zipWith, List.zipWith_self, List.mem_map] at hmem
    obtain ⟨w, -, heq⟩ := hmem
    obtain ⟨rfl, rfl⟩ := Prod.mk.inj heq
    rfl

theorem onLine_zip_iff (h : x.length = y.length) :
    OnLine s (x.zip y) ↔ ∃ height, y = x.map fun u => s * u + height :=
  exists_congr fun height => forall_mem_zip_iff (f := fun u => s * u + height) h

/-- **A line goes through the point of the means.** -/
theorem onLine_zip_iff_deviations (h : x.length = y.length) : OnLine s (x.zip y) ↔
    ∀ p ∈ x.zip y, p.2 - mean y - s * (p.1 - mean x) = 0 := by
  constructor
  · intro hline p hp
    obtain ⟨height, rfl⟩ := (onLine_zip_iff h).1 hline
    have hne : x ≠ [] := by
      rintro rfl
      cases hp
    rw [(forall_mem_zip_iff h).2 rfl p hp, mean_map_affine s height hne]
    ring
  · intro hall
    refine ⟨mean y - s * mean x, fun p hp => ?_⟩
    have hp := hall p hp
    linarith

end Lines

/-! ### The coefficient of correlation -/

section Coefficient

variable {x y : List ℝ} {s : ℝ}

/-- The sum of the products of the deviations of two variables from their means. -/
noncomputable def productSum (x y : List ℝ) : ℝ :=
  crossProducts (mean x) (mean y) (x.zip y)

/-- The coefficient of correlation, without a clamp. -/
noncomputable def productMoment (x y : List ℝ) : ℝ :=
  productSum x y / Real.sqrt (squaresAbout (mean x) x * squaresAbout (mean y) y)

theorem productSum_eq (x y : List ℝ) : productSum x y =
    ((x.zip y).map fun p => (p.1 - mean x) * (p.2 - mean y)).sum :=
  crossProducts_eq _ _ _

variable (h : x.length = y.length)

include h

/-- The squares of the first variable, point by point. -/
theorem sum_square_fst (c : ℝ) :
    ((x.zip y).map fun p => square (p.1 - c)).sum = squaresAbout c x := by
  calc ((x.zip y).map fun p => square (p.1 - c)).sum = squaresAbout c ((x.zip y).map (·.1)) := by
        rw [squaresAbout, List.map_map]
        rfl
    _ = squaresAbout c x := by rw [List.map_fst_zip h.le]

/-- The squares of the second variable, point by point. -/
theorem sum_square_snd (c : ℝ) :
    ((x.zip y).map fun p => square (p.2 - c)).sum = squaresAbout c y := by
  calc ((x.zip y).map fun p => square (p.2 - c)).sum = squaresAbout c ((x.zip y).map (·.2)) := by
        rw [squaresAbout, List.map_map]
        rfl
    _ = squaresAbout c y := by rw [List.map_snd_zip h.ge]

/-- The computed coefficient of variables of one length. -/
theorem correlation_eq : correlation x y =
    if squaresAbout (mean x) x ≤ 0 ∨ squaresAbout (mean y) y ≤ 0 then
      .error (.degenerate .constantVariable)
    else .ok (clamp (-1) 1 (productMoment x y)) := by
  have hx : crossProducts (mean x) (mean x) ((x.zip y).map fun p => (p.1, p.1)) =
      squaresAbout (mean x) x := by
    rw [crossProducts_eq, List.map_map]
    exact sum_square_fst h (mean x)
  have hy : crossProducts (mean y) (mean y) ((x.zip y).map fun p => (p.2, p.2)) =
      squaresAbout (mean y) y := by
    rw [crossProducts_eq, List.map_map]
    exact sum_square_snd h (mean y)
  rw [correlation, hx, hy, numeral_zero, numeral_one]
  rfl

/-- **Only constant variables have no correlation.** -/
theorem correlation_eq_error_iff :
    (∃ err, correlation x y = .error err) ↔ ¬ Varies x ∨ ¬ Varies y := by
  rw [correlation_eq h, ← squaresAbout_mean_pos_iff, ← squaresAbout_mean_pos_iff, not_lt, not_lt]
  split
  · rename_i hconstant
    exact ⟨fun _ => hconstant, fun _ => ⟨_, rfl⟩⟩
  · rename_i hvaries
    refine ⟨?_, fun hconstant => absurd hconstant hvaries⟩
    rintro ⟨err, herror⟩
    cases herror

/-- **The squared sum of the products is at most the product of both sums of squares.** -/
theorem square_productSum_le : square (productSum x y) ≤
    squaresAbout (mean x) x * squaresAbout (mean y) y := by
  have hschwarz :=
    square_sum_mul_le ((x.zip y).map fun p => (p.1 - mean x, p.2 - mean y))
  simp only [List.map_map, Function.comp_def] at hschwarz
  rwa [sum_square_fst h, sum_square_snd h, ← productSum_eq] at hschwarz

/-- The squared residuals from the line of a slope through the point of the means. -/
theorem sum_square_residuals (s : ℝ) :
    ((x.zip y).map fun p => square (p.2 - mean y - s * (p.1 - mean x))).sum =
      squaresAbout (mean y) y - 2 * s * productSum x y +
        square s * squaresAbout (mean x) x := by
  have hexpand : ∀ p : ℝ × ℝ, square (p.2 - mean y - s * (p.1 - mean x)) =
      square (p.2 - mean y) + -(2 * s) * ((p.1 - mean x) * (p.2 - mean y)) +
        square s * square (p.1 - mean x) := by
    intro p
    simp only [square_eq]
    ring
  simp only [hexpand, List.sum_map_add, List.sum_map_mul_left]
  rw [sum_square_snd h, sum_square_fst h, ← productSum_eq]
  ring

/-- Without residuals all points lie on the line. -/
theorem onLine_of_residuals (hzero : squaresAbout (mean y) y - 2 * s * productSum x y +
    square s * squaresAbout (mean x) x = 0) : OnLine s (x.zip y) := by
  rw [onLine_zip_iff_deviations h, ← sum_square_eq_zero_iff, sum_square_residuals h, hzero]

/-- On a line the deviations of one variable are a multiple of those of the other one. -/
theorem sums_of_onLine (hline : OnLine s (x.zip y)) :
    productSum x y = s * squaresAbout (mean x) x ∧
      squaresAbout (mean y) y = square s * squaresAbout (mean x) x := by
  have hdeviation : ∀ p ∈ x.zip y, p.2 - mean y = s * (p.1 - mean x) := fun p hp =>
    sub_eq_zero.1 ((onLine_zip_iff_deviations h).1 hline p hp)
  rw [productSum_eq, ← sum_square_snd h, ← sum_square_fst h, ← List.sum_map_mul_left,
    ← List.sum_map_mul_left]
  constructor
  · refine congrArg List.sum (List.map_congr_left fun p hp => ?_)
    rw [hdeviation p hp, square_eq]
    ring
  · refine congrArg List.sum (List.map_congr_left fun p hp => ?_)
    rw [hdeviation p hp, square_eq, square_eq, square_eq]
    ring

variable (hx : Varies x) (hy : Varies y)

include hx hy

omit h in
theorem sqrt_squares_pos :
    0 < Real.sqrt (squaresAbout (mean x) x * squaresAbout (mean y) y) :=
  Real.sqrt_pos.2 (mul_pos (squaresAbout_mean_pos_iff.2 hx) (squaresAbout_mean_pos_iff.2 hy))

/-- **The coefficient lies between minus one and one.** -/
theorem abs_productMoment_le_one : |productMoment x y| ≤ 1 := by
  have hroot := sqrt_squares_pos hx hy
  rw [productMoment, abs_div, abs_of_pos hroot, div_le_one hroot]
  refine Real.abs_le_sqrt ?_
  rw [sq]
  exact square_productSum_le h

/-- So the clamp does nothing. -/
theorem correlation_of_varies : correlation x y = .ok (productMoment x y) := by
  obtain ⟨hlow, hhigh⟩ := abs_le.1 (abs_productMoment_le_one h hx hy)
  have hclamp : clamp (-1) 1 (productMoment x y) = productMoment x y := by
    rw [clamp, if_neg (not_lt.2 hlow), if_neg (not_lt.2 hhigh)]
  rw [correlation_eq h, if_neg, hclamp]
  rw [not_or, not_le, not_le, squaresAbout_mean_pos_iff, squaresAbout_mean_pos_iff]
  exact ⟨hx, hy⟩

omit hy in
/-- On a line the coefficient is the sign of the slope. -/
theorem productMoment_of_onLine (hline : OnLine s (x.zip y)) :
    productMoment x y = s / |s| := by
  obtain ⟨hproducts, hsquares⟩ := sums_of_onLine h hline
  have hpos := squaresAbout_mean_pos_iff.2 hx
  have hroot : Real.sqrt (squaresAbout (mean x) x * (square s * squaresAbout (mean x) x)) =
      |s| * squaresAbout (mean x) x := by
    rw [show squaresAbout (mean x) x * (square s * squaresAbout (mean x) x) =
      (s * squaresAbout (mean x) x) ^ 2 by rw [square_eq]; ring, Real.sqrt_sq_eq_abs, abs_mul,
      abs_of_pos hpos]
  rw [productMoment, hproducts, hsquares, hroot, mul_div_mul_right _ _ hpos.ne']

/-- **Perfect correlation leaves no residuals**: all points lie on a line whose slope has the sign
of the coefficient. -/
theorem exists_onLine_of_abs_eq_one (hone : |productMoment x y| = 1) :
    ∃ s, s / |s| = productMoment x y ∧ s ≠ 0 ∧ OnLine s (x.zip y) := by
  have hroot := sqrt_squares_pos hx hy
  have hpos := squaresAbout_mean_pos_iff.2 hx
  have hproduct : square (productSum x y) =
      squaresAbout (mean x) x * squaresAbout (mean y) y := by
    rw [productMoment, abs_div, abs_of_pos hroot, div_eq_one_iff_eq hroot.ne'] at hone
    rw [square_eq, ← abs_mul_abs_self, hone,
      Real.mul_self_sqrt (mul_nonneg hpos.le (squaresAbout_nonneg _ _))]
  have hne : productSum x y ≠ 0 := by
    intro hzero
    rw [productMoment, hzero, zero_div, abs_zero] at hone
    exact zero_ne_one hone
  have hslope : productSum x y / squaresAbout (mean x) x ≠ 0 := div_ne_zero hne hpos.ne'
  -- the line of least squares leaves no residuals
  have hline : OnLine (productSum x y / squaresAbout (mean x) x) (x.zip y) := by
    refine onLine_of_residuals h ?_
    have hy' : squaresAbout (mean y) y =
        square (productSum x y) / squaresAbout (mean x) x := by
      rw [hproduct, mul_div_cancel_left₀ _ hpos.ne']
    rw [hy']
    simp only [square_eq]
    field_simp
    ring
  exact ⟨_, (productMoment_of_onLine h hx hline).symm, hslope, hline⟩

/-- **The coefficient is one exactly on lines that rise.** -/
theorem productMoment_eq_one_iff :
    productMoment x y = 1 ↔ ∃ s, 0 < s ∧ OnLine s (x.zip y) := by
  constructor
  · intro hone
    obtain ⟨s, hsign, hs, hline⟩ :=
      exists_onLine_of_abs_eq_one h hx hy (by rw [hone, abs_one])
    rw [hone, div_eq_one_iff_eq (abs_pos.2 hs).ne'] at hsign
    exact ⟨s, lt_of_le_of_ne (hsign ▸ abs_nonneg s) hs.symm, hline⟩
  · rintro ⟨s, hs, hline⟩
    rw [productMoment_of_onLine h hx hline, abs_of_pos hs, div_self hs.ne']

/-- **It is minus one exactly on lines that fall.** -/
theorem productMoment_eq_neg_one_iff :
    productMoment x y = -1 ↔ ∃ s, s < 0 ∧ OnLine s (x.zip y) := by
  constructor
  · intro hone
    obtain ⟨s, hsign, hs, hline⟩ :=
      exists_onLine_of_abs_eq_one h hx hy (by rw [hone, abs_neg, abs_one])
    rw [hone, div_eq_iff (abs_pos.2 hs).ne', neg_one_mul] at hsign
    refine ⟨s, lt_of_le_of_ne ?_ hs, hline⟩
    rw [hsign]
    exact neg_nonpos.2 (abs_nonneg s)
  · rintro ⟨s, hs, hline⟩
    rw [productMoment_of_onLine h hx hline, abs_of_neg hs, div_neg, div_self hs.ne]

/-- **A perfect correlation is a line that is not level.** -/
theorem abs_productMoment_eq_one_iff :
    |productMoment x y| = 1 ↔ ∃ s, s ≠ 0 ∧ OnLine s (x.zip y) := by
  constructor
  · intro hone
    obtain ⟨s, -, hs, hline⟩ := exists_onLine_of_abs_eq_one h hx hy hone
    exact ⟨s, hs, hline⟩
  · rintro ⟨s, hs, hline⟩
    rw [productMoment_of_onLine h hx hline, abs_div, abs_abs, div_self (abs_pos.2 hs).ne']

end Coefficient

/-! ### Ranks on a line -/

section RankLines

variable {x y : List ℝ}

/-- The ranks of a sample vary exactly if the sample does. -/
theorem varies_ranks_iff : Varies (ranks x) ↔ Varies x := by
  rw [ranks_eq]
  constructor
  · rintro ⟨r, hr, r', hr', hne⟩
    obtain ⟨u, hu, rfl⟩ := List.mem_map.1 hr
    obtain ⟨v, hv, rfl⟩ := List.mem_map.1 hr'
    exact ⟨u, hu, v, hv, ne_of_apply_ne _ hne⟩
  · rintro ⟨u, hu, v, hv, hne⟩
    exact ⟨_, List.mem_map_of_mem hu, _, List.mem_map_of_mem hv, (rankIn_inj hu hv).not.2 hne⟩

variable (h : x.length = y.length)

include h

theorem length_ranks_eq : (ranks x).length = (ranks y).length := by
  rw [length_ranks, length_ranks, h]

/-- **Ranks on a line that rises are equal.** -/
theorem exists_rising_ranks_iff :
    (∃ s, 0 < s ∧ OnLine s ((ranks x).zip (ranks y))) ↔ ranks y = ranks x := by
  constructor
  · rintro ⟨s, hs, hline⟩
    obtain ⟨height, heq⟩ := (onLine_zip_iff (length_ranks_eq h)).1 hline
    calc ranks y = ranks (ranks y) := (ranks_ranks y).symm
      _ = ranks ((ranks x).map (UnitChange.mk s height hs).measure) := congrArg ranks heq
      _ = ranks x := by rw [ranks_map_unit, ranks_ranks]
  · intro heq
    refine ⟨1, one_pos, (onLine_zip_iff (length_ranks_eq h)).2 ⟨0, ?_⟩⟩
    simp only [heq, one_mul, add_zero, List.map_id']

/-- **Ranks on a line that falls are those counted from the other end.** -/
theorem exists_falling_ranks_iff : (∃ s, s < 0 ∧ OnLine s ((ranks x).zip (ranks y))) ↔
    ranks y = (ranks x).map fun r => (x.length : ℝ) + 1 - r := by
  constructor
  · rintro ⟨s, hs, hline⟩
    obtain ⟨height, heq⟩ := (onLine_zip_iff (length_ranks_eq h)).1 hline
    -- a line that falls is one that rises, reflected
    have hreflected : ranks y =
        ((ranks x).map (UnitChange.mk (-s) (-height) (neg_pos.2 hs)).measure).map (-·) := by
      rw [heq, List.map_map]
      refine List.map_congr_left fun r _ => ?_
      rw [Function.comp_apply, UnitChange.measure]
      ring
    calc ranks y = ranks (ranks y) := (ranks_ranks y).symm
      _ = ranks (((ranks x).map (UnitChange.mk (-s) (-height) (neg_pos.2 hs)).measure).map (-·)) :=
          congrArg ranks hreflected
      _ = (ranks x).map fun r => (x.length : ℝ) + 1 - r := by
          rw [ranks_map_neg, ranks_map_unit, ranks_ranks, List.length_map, length_ranks]
  · intro heq
    refine ⟨-1, neg_one_lt_zero, (onLine_zip_iff (length_ranks_eq h)).2 ⟨x.length + 1, ?_⟩⟩
    rw [heq]
    refine List.map_congr_left fun r _ => ?_
    ring

/-- Ranks on a line that is not level are equal or reversed. -/
theorem exists_onLine_ranks_iff : (∃ s, s ≠ 0 ∧ OnLine s ((ranks x).zip (ranks y))) ↔
    ranks y = ranks x ∨ ranks y = (ranks x).map fun r => (x.length : ℝ) + 1 - r := by
  rw [← exists_rising_ranks_iff h, ← exists_falling_ranks_iff h, ← exists_or]
  refine exists_congr fun s => ?_
  rw [← or_and_right, or_comm, lt_or_lt_iff_ne]

end RankLines

/-! ### The tests -/

section Tests

variable [Tails ℝ] {x y : List ℝ} {r : ℝ} {n : ℕ}

/-- The probability of a coefficient of `n` points at least as far from zero, from its t statistic.
-/
noncomputable def correlationTail (r : ℝ) (n : ℕ) : ℝ :=
  studentTail (r * Real.sqrt ((n - 2) / (1 - r * r))) (n - 2)

/-- The test of a coefficient never lacks degrees of freedom. -/
theorem correlationTest_eq (hn : 3 ≤ n) : correlationTest r n =
    .ok (.clamped r (if 1 ≤ |r| then 0 else correlationTail r n) (some ((n : ℝ) - 2))) := by
  have hdf : (0 : ℝ) < n - 2 := sub_pos.2 (Nat.ofNat_lt_cast.2 hn)
  rw [correlationTest, numeral_zero, numeral_one]
  dsimp only
  split
  · rename_i hone
    rw [if_pos (abs_eq r ▸ hone)]
    rfl
  · rename_i hone
    rw [if_neg (abs_eq r ▸ hone)]
    exact congrArg (· >>= _) (studentTwoSided_eq hdf)

/-- A test of a coefficient of `n` points is certain in one case, where it answers a p-value of zero
without a reference distribution; it asks the distribution in every other. -/
structure CertainIff (run : Except SampleError (TestOutput ℝ)) (r : ℝ) (n : ℕ) (perfect : Prop) :
    Prop where
  certain : perfect → |r| = 1 ∧ run = .ok ⟨r, 0, some ((n : ℝ) - 2)⟩
  otherwise : ¬ perfect →
    |r| < 1 ∧ run = .ok (.clamped r (correlationTail r n) (some ((n : ℝ) - 2)))

/-- **The test of variables that vary is certain exactly if their points lie on a line that is not
level.** -/
theorem correlationTest_certainIff (h : x.length = y.length) (hx : Varies x) (hy : Varies y)
    (hn : 3 ≤ n) : CertainIff (correlation x y >>= fun r => correlationTest r n)
      (productMoment x y) n (∃ s, s ≠ 0 ∧ OnLine s (x.zip y)) := by
  rw [correlation_of_varies h hx hy, ok_bind, correlationTest_eq hn]
  refine ⟨fun hline => ?_, fun hline => ?_⟩
  · have hone := (abs_productMoment_eq_one_iff h hx hy).2 hline
    refine ⟨hone, ?_⟩
    rw [if_pos hone.ge, TestOutput.clamped, numeral_zero, numeral_one,
      clamp_eq_self (le_refl 0) zero_le_one]
  · have hone := lt_of_le_of_ne (abs_productMoment_le_one h hx hy)
      ((abs_productMoment_eq_one_iff h hx hy).not.2 hline)
    refine ⟨hone, ?_⟩
    rw [if_neg (not_le.2 hone)]

theorem pearson_eq (h : x.length = y.length) (hn : 3 ≤ x.length) :
    pearson x y = correlation x y >>= fun r => correlationTest r x.length := by
  rw [pearson, (requireAligned_eq_ok_iff x y).2 h, (require_eq_ok_iff x 3).2 hn, ok_bind, ok_bind]

/-- The test of ranks is that of the coefficient of the ranks. -/
theorem spearman_eq (h : x.length = y.length) (hn : 3 ≤ x.length) :
    spearman x y = correlation (ranks x) (ranks y) >>= fun r => correlationTest r x.length := by
  rw [spearman, (requireAligned_eq_ok_iff x y).2 h, (require_eq_ok_iff x 3).2 hn, ok_bind, ok_bind]

/-- **When the tests of correlation are certain.** Variables of one length have no coefficient
exactly if one of them is constant.  Otherwise the coefficient lies between minus one and one
without the clamp, and at an end of this interval exactly if all points lie on a line that rises or
falls.  So the test of the values is certain exactly for such points, and the test of the ranks
exactly for ranks that are equal or reversed. -/
theorem correlation_perfect_iff_collinear (h : x.length = y.length) :
    ((∃ err, correlation x y = .error err) ↔ ¬ Varies x ∨ ¬ Varies y) ∧
    (Varies x → Varies y →
      square (productSum x y) ≤ squaresAbout (mean x) x * squaresAbout (mean y) y ∧
      correlation x y = .ok (productMoment x y) ∧
      (|productMoment x y| = 1 ↔ ∃ s, s ≠ 0 ∧ OnLine s (x.zip y)) ∧
      (productMoment x y = 1 ↔ ∃ s, 0 < s ∧ OnLine s (x.zip y)) ∧
      (productMoment x y = -1 ↔ ∃ s, s < 0 ∧ OnLine s (x.zip y))) ∧
    (3 ≤ x.length → ¬ Varies x ∨ ¬ Varies y →
      (∃ err, pearson x y = .error err) ∧ ∃ err, spearman x y = .error err) ∧
    (3 ≤ x.length → Varies x → Varies y →
      CertainIff (pearson x y) (productMoment x y) x.length (∃ s, s ≠ 0 ∧ OnLine s (x.zip y)) ∧
      CertainIff (spearman x y) (productMoment (ranks x) (ranks y)) x.length
        (ranks y = ranks x ∨ ranks y = (ranks x).map fun r => (x.length : ℝ) + 1 - r)) := by
  have hranks := length_ranks_eq h
  refine ⟨correlation_eq_error_iff h, fun hx hy => ?_, fun hn hconstant => ?_, fun hn hx hy => ?_⟩
  · exact ⟨square_productSum_le h, correlation_of_varies h hx hy,
      abs_productMoment_eq_one_iff h hx hy, productMoment_eq_one_iff h hx hy,
      productMoment_eq_neg_one_iff h hx hy⟩
  · obtain ⟨err, herror⟩ := (correlation_eq_error_iff h).2 hconstant
    rw [← varies_ranks_iff, ← varies_ranks_iff (x := y)] at hconstant
    obtain ⟨err', herror'⟩ := (correlation_eq_error_iff hranks).2 hconstant
    rw [pearson_eq h hn, spearman_eq h hn, herror, herror']
    exact ⟨⟨err, rfl⟩, ⟨err', rfl⟩⟩
  · rw [pearson_eq h hn, spearman_eq h hn, ← exists_onLine_ranks_iff h]
    exact ⟨correlationTest_certainIff h hx hy hn,
      correlationTest_certainIff hranks (varies_ranks_iff.2 hx) (varies_ranks_iff.2 hy) hn⟩

omit [Tails ℝ] in
/-- Three points that fall, but not on a line: only the test of their ranks is certain. -/
theorem spearman_certain_of_falling :
    let _tails := densityTails
    let x : List ℝ := [1, 2, 4]
    let y : List ℝ := [9, 4, 0]
    spearman x y = .ok ⟨-1, 0, some 1⟩ ∧
      ∃ r, |r| < 1 ∧ pearson x y = .ok (.clamped r (correlationTail r 3) (some 1)) := by
  intro _tails x y
  have hx : Varies x := ⟨1, by simp [x], 2, by simp [x], by norm_num⟩
  have hy : Varies y := ⟨9, by simp [y], 4, by simp [y], by norm_num⟩
  have hrx : ranks x = [1, 2, 3] := by
    rw [ranks_eq]
    norm_num [rankIn, x, List.countP_cons]
  have hry : ranks y = [3, 2, 1] := by
    rw [ranks_eq]
    norm_num [rankIn, y, List.countP_cons]
  have hreversed : ranks y = (ranks x).map fun r => (x.length : ℝ) + 1 - r := by
    norm_num [hrx, hry, x]
  have hbent : ¬ ∃ s, s ≠ 0 ∧ OnLine s (x.zip y) := by
    rintro ⟨s, -, height, hall⟩
    have h1 := hall (1, 9) (by simp [x, y])
    have h2 := hall (2, 4) (by simp [x, y])
    have h3 := hall (4, 0) (by simp [x, y])
    linarith
  have hlength : x.length = y.length := rfl
  obtain ⟨-, -, -, htests⟩ := correlation_perfect_iff_collinear hlength
  obtain ⟨hpearson, hspearman⟩ := htests (le_refl 3) hx hy
  obtain ⟨-, hcertain⟩ := hspearman.certain (.inr hreversed)
  obtain ⟨hinside, hasked⟩ := hpearson.otherwise hbent
  have hfalls := (productMoment_eq_neg_one_iff (length_ranks_eq hlength) (varies_ranks_iff.2 hx)
    (varies_ranks_iff.2 hy)).2 ((exists_falling_ranks_iff hlength).2 hreversed)
  have hdf : (x.length : ℝ) - 2 = 1 := by norm_num [x]
  rw [hfalls, hdf] at hcertain
  rw [hdf] at hasked
  exact ⟨hcertain, _, hinside, hasked⟩

end Tests

end StudyAnalysis.Exact
