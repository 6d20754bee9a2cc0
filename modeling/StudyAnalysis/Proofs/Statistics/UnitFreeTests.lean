/-
**Tests do not depend on the unit of measurement.**

Test statistics and effect sizes are ratios of quantities that change by the same factor with the
unit, or they are computed from ranks.  In exact arithmetic, samples that are measured in another
unit and from another origin therefore have the same tests, down to the reasons for which a test
cannot be run; two correlated variables may even change their units independently of each other.
The tails of the reference distributions are arbitrary functions here.

Main results:

* `StudyAnalysis.Exact.studentsT_map_unit`, `StudyAnalysis.Exact.welchT_map_unit`,
  `StudyAnalysis.Exact.mannWhitneyU_map_unit` — tests of two independent samples;
* `StudyAnalysis.Exact.pairedT_map_unit`, `StudyAnalysis.Exact.wilcoxonSignedRank_map_unit` — tests
  of two related samples;
* `StudyAnalysis.Exact.oneWayAnova_map_unit`, `StudyAnalysis.Exact.levene_map_unit`,
  `StudyAnalysis.Exact.kruskalWallis_map_unit`, `StudyAnalysis.Exact.friedman_map_unit` — tests of
  several groups;
* `StudyAnalysis.Exact.pearson_map_unit`, `StudyAnalysis.Exact.spearman_map_unit`,
  `StudyAnalysis.Exact.kendallTau_map_unit` — tests of correlation.
-/

import StudyAnalysis.Proofs.Statistics.Groups
import StudyAnalysis.Proofs.Statistics.OrderInvariance
import StudyAnalysis.Proofs.Statistics.TwoSamples
import StudyAnalysis.Proofs.Statistics.Units

set_option autoImplicit false
set_option relaxedAutoImplicit false

namespace StudyAnalysis.Exact

open Numeric Fallible

variable (k : UnitChange)

/-! ### Ratios -/

section Ratios

variable {β γ : Type}

theorem ne_nil_of_two_le {xs : List β} (h : 2 ≤ xs.length) : xs ≠ [] := by
  rintro rfl
  exact absurd h (Nat.not_succ_le_zero 1)

/-- What follows the requirement of a length may rely on it. -/
theorem require_bind_congr {xs ys : List β} (hlength : xs.length = ys.length) {needed : ℕ}
    {x y : Except SampleError γ} (h : needed ≤ ys.length → x = y) :
    (require xs needed >>= fun _ => x) = (require ys needed >>= fun _ => y) := by
  rw [require_eq_of_length hlength]
  cases hrequire : require ys needed with
  | error err => rfl
  | ok _ => rw [ok_bind, ok_bind, h ((require_eq_ok_iff ys needed).1 hrequire)]

namespace UnitChange

variable {x v : ℝ}

theorem square_factor_mul_nonpos : square k.factor * v ≤ 0 ↔ v ≤ 0 := by
  have hpos := k.square_factor_pos
  constructor <;> intro h <;> nlinarith

/-- A root of a quantity of the second power changes by the factor. -/
theorem sqrt_square_factor_mul (v : ℝ) :
    Real.sqrt (square k.factor * v) = k.factor * Real.sqrt v := by
  rw [square_eq, Real.sqrt_mul (mul_nonneg k.factor_pos.le k.factor_pos.le),
    Real.sqrt_mul_self k.factor_pos.le]

theorem factor_div (x v : ℝ) : k.factor * x / (k.factor * v) = x / v :=
  mul_div_mul_left x v k.factor_pos.ne'

theorem square_factor_div (x v : ℝ) : square k.factor * x / (square k.factor * v) = x / v :=
  mul_div_mul_left x v k.square_factor_pos.ne'

end UnitChange

end Ratios

/-! ### Ranks and ties -/

section Ranks

/-- Values compare alike in every unit. -/
theorem UnitChange.orderAlike : OrderAlike id k.measure :=
  Exact.orderAlike strictMono_id k.strictMono_measure

/-- **Ranks do not depend on the unit.** -/
theorem ranks_map_unit (xs : List ℝ) : ranks (xs.map k.measure) = ranks xs := by
  simpa only [List.map_id] using k.orderAlike.ranks_eq xs

/-- **Neither do ties.** -/
theorem tieCorrection_map_unit (xs : List ℝ) :
    tieCorrection (xs.map k.measure) = tieCorrection xs := by
  simpa only [List.map_id] using k.orderAlike.tieCorrection_eq xs

end Ranks

/-! ### Two independent samples -/

section Independent

variable {a b : List ℝ}

theorem pooledVariance_map_unit (a b : List ℝ) :
    pooledVariance (a.map k.measure) (b.map k.measure) =
      square k.factor * pooledVariance a b := by
  simp only [pooledVariance, variance_map_unit, count_eq, List.length_map]
  ring

theorem squaredError_map_unit (xs : List ℝ) :
    squaredError (xs.map k.measure) = square k.factor * squaredError xs := by
  simp only [squaredError, variance_map_unit, count_eq, List.length_map]
  ring

theorem welchDf_map_unit (a b : List ℝ) :
    welchDf (a.map k.measure) (b.map k.measure) = welchDf a b := by
  have hsquare : ∀ v : ℝ, square (square k.factor * v) =
      square k.factor * square k.factor * square v := by
    intro v
    simp only [square_eq]
    ring
  simp only [welchDf, squaredError_map_unit, count_eq, List.length_map, ← mul_add, hsquare,
    mul_div_assoc]
  rw [← mul_div_assoc, mul_div_mul_left _ _ (mul_pos k.square_factor_pos k.square_factor_pos).ne']

/-- **The difference of two means in pooled units does not depend on the unit.** -/
theorem cohensD_map_unit (ha : a ≠ []) (hb : b ≠ []) :
    cohensD (a.map k.measure) (b.map k.measure) = cohensD a b := by
  simp only [cohensD, pooledVariance_map_unit, mean_sub_mean_map_unit k ha hb, sqrt_eq,
    k.sqrt_square_factor_mul, k.factor_div, numeral_zero, k.square_factor_mul_nonpos]

variable [Tails ℝ]

/-- **Student's test does not depend on the unit.** -/
theorem studentsT_map_unit (a b : List ℝ) :
    studentsT (a.map k.measure) (b.map k.measure) = studentsT a b := by
  refine require_bind_congr (List.length_map _) fun ha =>
    require_bind_congr (List.length_map _) fun hb => ?_
  simp only [pooledVariance_map_unit,
    mean_sub_mean_map_unit k (ne_nil_of_two_le ha) (ne_nil_of_two_le hb), count_eq,
    List.length_map, mul_assoc, sqrt_eq, k.sqrt_square_factor_mul, k.factor_div, numeral_zero,
    k.square_factor_mul_nonpos]

/-- **Neither does Welch's.** -/
theorem welchT_map_unit (a b : List ℝ) :
    welchT (a.map k.measure) (b.map k.measure) = welchT a b := by
  refine require_bind_congr (List.length_map _) fun ha =>
    require_bind_congr (List.length_map _) fun hb => ?_
  simp only [squaredError_map_unit, welchDf_map_unit, ← mul_add,
    mean_sub_mean_map_unit k (ne_nil_of_two_le ha) (ne_nil_of_two_le hb), sqrt_eq,
    k.sqrt_square_factor_mul, k.factor_div, numeral_zero, k.square_factor_mul_nonpos]

/-- **The rank-sum test does not depend on the unit.** -/
theorem mannWhitneyU_map_unit (a b : List ℝ) :
    mannWhitneyU (a.map k.measure) (b.map k.measure) = mannWhitneyU a b := by
  simpa only [List.map_id] using k.orderAlike.mannWhitneyU_eq a b

end Independent

/-! ### Two related samples -/

section Related

/-- Differences of related values are measured in the same unit, whatever the origin. -/
theorem pairedDifferences_map_unit (x y : List ℝ) :
    pairedDifferences (x.map k.measure) (y.map k.measure) =
      (pairedDifferences x y).map k.ofDifferences.measure := by
  rw [pairedDifferences, pairedDifferences, List.zipWith_map, List.map_zipWith]
  simp only [k.measure_sub, k.measure_ofDifferences]

theorem differences_map_unit (x y : List ℝ) :
    differences (x.map k.measure) (y.map k.measure) =
      (differences x y).map (List.map k.ofDifferences.measure) := by
  rw [differences, differences, pairedDifferences_map_unit, requireAligned, requireAligned,
    List.length_map, List.length_map]
  split <;> rfl

theorem mean_map_ofDifferences (ds : List ℝ) :
    mean (ds.map k.ofDifferences.measure) = k.factor * mean ds := by
  by_cases hne : ds = []
  · rw [hne, List.map_nil, mean_eq, List.sum_nil, zero_div, mul_zero]
  · rw [mean_map_unit _ hne, k.measure_ofDifferences]

/-- The number of nonzero differences, and their signs, do not depend on the unit. -/
theorem filter_map_ofDifferences (ds : List ℝ) :
    ((ds.map k.ofDifferences.measure).filter fun d => !(d == 0)) =
      (ds.filter fun d => !(d == 0)).map k.ofDifferences.measure := by
  have hzero : ∀ d : ℝ, (k.factor * d == 0) = (d == 0) := by
    intro d
    rw [Bool.eq_iff_iff, beq_iff_eq, beq_iff_eq, mul_eq_zero, or_iff_right k.factor_pos.ne']
  rw [List.filter_map]
  simp only [Function.comp_def, k.measure_ofDifferences, hzero]

theorem map_abs_ofDifferences (ds : List ℝ) :
    (ds.map k.ofDifferences.measure).map Numeric.abs =
      (ds.map Numeric.abs).map k.ofDifferences.measure := by
  rw [List.map_map, List.map_map]
  refine List.map_congr_left fun d _ => ?_
  simp only [Function.comp_apply, abs_eq, k.measure_ofDifferences, abs_mul,
    abs_of_pos k.factor_pos]

theorem positiveRankSum_map_ofDifferences (ds : List ℝ) :
    positiveRankSum (ds.map k.ofDifferences.measure) = positiveRankSum ds := by
  have hpositive : ∀ d : ℝ, 0 < k.factor * d ↔ 0 < d := fun d =>
    mul_pos_iff_of_pos_left k.factor_pos
  rw [positiveRankSum, positiveRankSum, map_abs_ofDifferences, ranks_map_unit, List.zip_map_left,
    List.filter_map, List.map_map]
  simp only [Function.comp_def, Prod.map_fst, Prod.map_snd, id, k.measure_ofDifferences,
    numeral_zero, hpositive]

theorem signedRankVariance_map_ofDifferences (ds : List ℝ) :
    signedRankVariance (ds.map k.ofDifferences.measure) = signedRankVariance ds := by
  simp only [signedRankVariance, map_abs_ofDifferences, tieCorrection_map_unit, count_eq,
    List.length_map]

theorem cohensDz_map_unit (x y : List ℝ) :
    cohensDz (x.map k.measure) (y.map k.measure) = cohensDz x y := by
  have hfactor : k.ofDifferences.factor = k.factor := rfl
  simp only [cohensDz, pairedDifferences_map_unit, variance_map_unit, mean_map_ofDifferences,
    hfactor, sqrt_eq, k.sqrt_square_factor_mul, k.factor_div, numeral_zero, k.factor_mul_nonpos]

variable [Tails ℝ]

/-- **The paired t-test does not depend on the unit.** -/
theorem pairedT_map_unit (x y : List ℝ) :
    pairedT (x.map k.measure) (y.map k.measure) = pairedT x y := by
  have hfactor : k.ofDifferences.factor = k.factor := rfl
  rw [pairedT, pairedT, differences_map_unit]
  cases differences x y with
  | error err => rfl
  | ok ds =>
      refine require_bind_congr (List.length_map _) fun _ => ?_
      simp only [variance_map_unit, mean_map_ofDifferences, hfactor, count_eq, List.length_map,
        sqrt_eq, k.sqrt_square_factor_mul, mul_div_assoc, numeral_zero, k.factor_mul_nonpos]
      rw [← mul_div_assoc, k.factor_div]

/-- **The signed-rank test does not depend on the unit.** -/
theorem wilcoxonSignedRank_map_unit (x y : List ℝ) :
    wilcoxonSignedRank (x.map k.measure) (y.map k.measure) = wilcoxonSignedRank x y := by
  have hnonzero : nonzeroDifferences (x.map k.measure) (y.map k.measure) =
      (nonzeroDifferences x y).map (List.map k.ofDifferences.measure) := by
    rw [nonzeroDifferences, nonzeroDifferences, differences_map_unit]
    cases differences x y with
    | error err => rfl
    | ok ds =>
        refine congrArg Except.ok ?_
        simpa only [numeral_zero] using filter_map_ofDifferences k ds
  rw [wilcoxonSignedRank, wilcoxonSignedRank, hnonzero]
  cases nonzeroDifferences x y with
  | error err => rfl
  | ok ds =>
      refine require_bind_congr (List.length_map _) fun _ => ?_
      simp only [positiveRankSum_map_ofDifferences, signedRankVariance_map_ofDifferences, count_eq,
        List.length_map]

end Related

/-! ### Several groups -/

section Groups

variable {groups : List (List ℝ)}

/-- Groups whose values are measured in another unit. -/
noncomputable def regroup (k : UnitChange) (groups : List (List ℝ)) : List (List ℝ) :=
  groups.map (List.map k.measure)

theorem flatten_regroup (groups : List (List ℝ)) :
    (regroup k groups).flatten = groups.flatten.map k.measure :=
  List.map_flatten.symm

theorem requireGroups_regroup (groups : List (List ℝ)) :
    requireGroups (regroup k groups) = requireGroups groups :=
  requireGroups_map (fun _ => List.length_map _) groups

/-- What follows the requirement of groups may rely on it. -/
theorem requireGroups_bind_congr {γ : Type} {gs : List (List ℝ)}
    (hrequire : requireGroups gs = requireGroups groups) {x y : Except SampleError γ}
    (h : groups ≠ [] → (∀ g ∈ groups, g ≠ []) → x = y) :
    (requireGroups gs >>= fun _ => x) = (requireGroups groups >>= fun _ => y) := by
  rw [hrequire]
  cases hgroups : requireGroups groups with
  | error err => rfl
  | ok _ =>
      obtain ⟨hmany, hall⟩ := requireGroups_eq_ok_iff.1 hgroups
      rw [ok_bind, ok_bind, h (ne_nil_of_two_le hmany) fun g hg => ne_nil_of_two_le (hall g hg)]

/-- **The sums of squares change by the square of the factor.** -/
theorem sumsOfSquares_regroup (hne : groups ≠ []) (hall : ∀ g ∈ groups, g ≠ []) :
    sumsOfSquares (regroup k groups) = (square k.factor * (sumsOfSquares groups).1,
      square k.factor * (sumsOfSquares groups).2) := by
  have hflatten : groups.flatten ≠ [] := by
    obtain ⟨g, rest, rfl⟩ := List.exists_cons_of_ne_nil hne
    rw [List.flatten_cons]
    exact List.append_ne_nil_of_left_ne_nil (hall g List.mem_cons_self) _
  have hgrand : grandMean (regroup k groups) = k.measure (grandMean groups) := by
    rw [grandMean_eq, flatten_regroup, mean_map_unit k hflatten, grandMean_eq]
  simp only [sumsOfSquares, foldl_add_eq, hgrand, numeral_zero, zero_add]
  simp only [regroup, List.map_map, ← List.sum_map_mul_left]
  refine Prod.ext ?_ ?_
  · refine congrArg List.sum (List.map_congr_left fun g hg => ?_)
    simp only [Function.comp_apply, betweenTerm, mean_map_unit k (hall g hg),
      k.square_measure_sub, count_eq, List.length_map]
    ring
  · refine congrArg List.sum (List.map_congr_left fun g hg => ?_)
    simp only [Function.comp_apply, squaredDeviations_eq, mean_map_unit k (hall g hg), List.map_map,
      Function.comp_def, k.square_measure_sub, List.sum_map_mul_left]

theorem etaSquared_regroup (hne : groups ≠ []) (hall : ∀ g ∈ groups, g ≠ []) :
    etaSquared (regroup k groups) = etaSquared groups := by
  simp only [etaSquared, sumsOfSquares_regroup k hne hall, ← mul_add, k.square_factor_div,
    numeral_zero, k.square_factor_mul_nonpos]

variable [Tails ℝ]

/-- **The analysis of variance does not depend on the unit.** -/
theorem oneWayAnova_map_unit (groups : List (List ℝ)) :
    oneWayAnova (regroup k groups) = oneWayAnova groups := by
  refine requireGroups_bind_congr (requireGroups_regroup k groups) fun hne hall => ?_
  have hcount : (count (regroup k groups) : ℝ) = count groups := by
    rw [count_eq, count_eq, regroup, List.length_map]
  have hratio : ∀ b w m : ℝ, square k.factor * b / m / (square k.factor * w) = b / m / w := by
    intro b w m
    rw [mul_div_assoc, k.square_factor_div]
  simp only [sumsOfSquares_regroup k hne hall, hcount, flatten_regroup, List.length_map,
    mul_div_assoc (square k.factor) (sumsOfSquares groups).2, hratio, numeral_zero,
    k.square_factor_mul_nonpos]

omit [Tails ℝ] in
/-- Distances from the median are measured in the same unit, whatever the origin. -/
theorem medianDeviations_map_unit (xs : List ℝ) : medianDeviations (xs.map k.measure) =
    (medianDeviations xs).map k.ofDifferences.measure := by
  by_cases hne : xs = []
  · rw [hne]
    rfl
  simp only [medianDeviations, List.map_map]
  refine List.map_congr_left fun x _ => ?_
  simp only [Function.comp_apply, median_map_unit k hne, k.measure_sub, abs_eq, abs_mul,
    abs_of_pos k.factor_pos, k.measure_ofDifferences]

/-- **The test of equal variances does not depend on the unit.** -/
theorem levene_map_unit (groups : List (List ℝ)) : levene (regroup k groups) = levene groups := by
  have hdeviations : (regroup k groups).map medianDeviations =
      regroup k.ofDifferences (groups.map medianDeviations) := by
    rw [regroup, regroup, List.map_map, List.map_map]
    exact List.map_congr_left fun g _ => medianDeviations_map_unit k g
  rw [levene, levene, hdeviations, oneWayAnova_map_unit]

/-- **The rank analysis of variance does not depend on the unit.** -/
theorem kruskalWallis_map_unit (groups : List (List ℝ)) :
    kruskalWallis (regroup k groups) = kruskalWallis groups := by
  simpa only [regroup, List.map_id_fun, List.map_id] using k.orderAlike.kruskalWallis_eq groups

/-- **The rank analysis of variance of related conditions does not depend on the unit.** -/
theorem friedman_map_unit (conditions : List (List ℝ)) :
    friedman (regroup k conditions) = friedman conditions := by
  simpa only [regroup, List.map_id_fun, List.map_id] using k.orderAlike.friedman_eq conditions

end Groups

/-! ### Correlations -/

section Correlations

variable (k' : UnitChange)

/-- The points of two variables, each of them measured in another unit. -/
theorem zip_map_units (x y : List ℝ) : (x.map k.measure).zip (y.map k'.measure) =
    (x.zip y).map (Prod.map k.measure k'.measure) :=
  List.zip_map

theorem crossProducts_eq (mx my : ℝ) (points : List (ℝ × ℝ)) :
    crossProducts mx my points = (points.map fun p => (p.1 - mx) * (p.2 - my)).sum := by
  rw [crossProducts, foldl_add_eq, numeral_zero, zero_add]

/-- A sum of products of deviations changes by both factors. -/
theorem crossProducts_map_units (mx my : ℝ) (points : List (ℝ × ℝ)) :
    crossProducts (k.measure mx) (k'.measure my) (points.map (Prod.map k.measure k'.measure)) =
      k.factor * k'.factor * crossProducts mx my points := by
  rw [crossProducts_eq, crossProducts_eq, List.map_map, ← List.sum_map_mul_left]
  refine congrArg List.sum (List.map_congr_left fun p _ => ?_)
  simp only [Function.comp_apply, Prod.map_fst, Prod.map_snd, UnitChange.measure_sub]
  ring

/-- **The product-moment correlation does not depend on the units of the two variables.** -/
theorem correlation_map_units (x y : List ℝ) :
    correlation (x.map k.measure) (y.map k'.measure) = correlation x y := by
  by_cases hempty : x.zip y = []
  · -- without points both variables are constant
    have hempty' : (x.map k.measure).zip (y.map k'.measure) = [] := by
      rw [zip_map_units, hempty, List.map_nil]
    rw [correlation, correlation, hempty, hempty']
    rfl
  have hx : x ≠ [] := by
    rintro rfl
    exact hempty List.zip_nil_left
  have hy : y ≠ [] := by
    rintro rfl
    exact hempty List.zip_nil_right
  have hfst : ((x.zip y).map (Prod.map k.measure k'.measure)).map (fun p => (p.1, p.1)) =
      ((x.zip y).map fun p => (p.1, p.1)).map (Prod.map k.measure k.measure) := by
    rw [List.map_map, List.map_map]
    rfl
  have hsnd : ((x.zip y).map (Prod.map k.measure k'.measure)).map (fun p => (p.2, p.2)) =
      ((x.zip y).map fun p => (p.2, p.2)).map (Prod.map k'.measure k'.measure) := by
    rw [List.map_map, List.map_map]
    rfl
  have hroot : ∀ v w : ℝ, Real.sqrt (k.factor * k.factor * v * (k'.factor * k'.factor * w)) =
      k.factor * k'.factor * Real.sqrt (v * w) := by
    intro v w
    rw [show k.factor * k.factor * v * (k'.factor * k'.factor * w) =
      (k.factor * k'.factor) * (k.factor * k'.factor) * (v * w) by ring,
      Real.sqrt_mul (mul_self_nonneg _), Real.sqrt_mul_self
        (mul_pos k.factor_pos k'.factor_pos).le]
  have hratio : ∀ v w : ℝ, k.factor * k'.factor * v / (k.factor * k'.factor * w) = v / w :=
    fun v w => mul_div_mul_left v w (mul_pos k.factor_pos k'.factor_pos).ne'
  have hnonpos : ∀ (k : UnitChange) (v : ℝ), k.factor * k.factor * v ≤ 0 ↔ v ≤ 0 :=
    fun k v => k.square_factor_mul_nonpos
  rw [correlation, correlation]
  simp only [zip_map_units, hfst, hsnd, mean_map_unit k hx, mean_map_unit k' hy,
    crossProducts_map_units, numeral_zero, hnonpos, sqrt_eq, hroot, hratio]

variable [Tails ℝ]

/-- **The test of the product-moment correlation does not depend on the units.** -/
theorem pearson_map_unit (x y : List ℝ) :
    pearson (x.map k.measure) (y.map k'.measure) = pearson x y := by
  rw [pearson, pearson, requireAligned_map, require_eq_of_length (List.length_map _),
    correlation_map_units, List.length_map]

/-- **The test of the correlation of ranks does not depend on the units.** -/
theorem spearman_map_unit (x y : List ℝ) :
    spearman (x.map k.measure) (y.map k'.measure) = spearman x y := by
  simpa only [List.map_id] using k.orderAlike.spearman_eq k'.orderAlike x y

/-- **The test of orders does not depend on the units.** -/
theorem kendallTau_map_unit (x y : List ℝ) :
    kendallTau (x.map k.measure) (y.map k'.measure) = kendallTau x y := by
  simpa only [List.map_id] using k.orderAlike.kendallTau_eq k'.orderAlike x y

end Correlations

end StudyAnalysis.Exact
