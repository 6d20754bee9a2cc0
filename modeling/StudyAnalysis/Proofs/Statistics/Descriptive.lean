/-
**Descriptive statistics do not depend on the order of a sample, and follow its reflection.**

In exact arithmetic every statistic of one sample is a function of the values without their order.
Replacing every value by its negative changes the sign of the mean and of the median, exchanges the
two ends of the sample, and keeps its spread: the value at the level `q` becomes the negative of the
value at the level `1 - q`, so that Tukey's fences are exchanged and the same values lie outside of
them.

Main definitions:

* `StudyAnalysis.Exact.interpolated` — the value between two neighbours of a sorted sample.

Main results:

* `StudyAnalysis.Exact.mean_eq`, `StudyAnalysis.Exact.variance_eq` — the first two moments;
* `StudyAnalysis.Exact.mean_eq_of_perm` and its kin — the order of a sample is irrelevant;
* `StudyAnalysis.Exact.quantile_map_neg` — **reflection exchanges the levels of a sample**;
* `StudyAnalysis.Exact.tukeyOutliers_map_neg` — **reflection keeps the outliers**.
-/

import StudyAnalysis.Proofs.Number.Exact
import StudyAnalysis.Statistics.Descriptive

set_option autoImplicit false
set_option relaxedAutoImplicit false

namespace StudyAnalysis.Exact

open Numeric

variable {xs ys : List ℝ}

/-! ### Moments -/

/-- The mean of a sample; nothing divided by nothing is zero, as the mean of nothing is. -/
theorem mean_eq (xs : List ℝ) : mean xs = xs.sum / xs.length := by
  rw [mean]
  split
  · rename_i hempty
    rw [List.isEmpty_iff.1 hempty]
    simp
  · rw [sum_eq, count_eq]

theorem mean_eq_of_perm (h : xs.Perm ys) : mean xs = mean ys := by
  rw [mean_eq, mean_eq, h.sum_eq, h.length_eq]

theorem sum_map_affine (a b : ℝ) (xs : List ℝ) :
    (xs.map fun x => a * x + b).sum = a * xs.sum + b * xs.length := by
  rw [List.sum_map_add, List.sum_map_mul_left, List.map_id', List.map_const', List.sum_replicate,
    nsmul_eq_mul, mul_comm b]

/-- A change of unit changes the mean of a sample as its values. -/
theorem mean_map_affine (a b : ℝ) (h : xs ≠ []) :
    mean (xs.map fun x => a * x + b) = a * mean xs + b := by
  have hlength : (xs.length : ℝ) ≠ 0 := by
    rw [Nat.cast_ne_zero, ne_eq, List.length_eq_zero_iff]
    exact h
  rw [mean_eq, mean_eq, sum_map_affine, List.length_map]
  field_simp

@[simp] theorem sum_map_neg (xs : List ℝ) : (xs.map (-·)).sum = -xs.sum := by
  have h := sum_map_affine (-1) 0 xs
  simp only [neg_mul, one_mul, add_zero, zero_mul] at h
  exact h

@[simp] theorem mean_map_neg (xs : List ℝ) : mean (xs.map (-·)) = -mean xs := by
  rw [mean_eq, mean_eq, List.length_map, sum_map_neg, neg_div]

theorem variance_eq (xs : List ℝ) :
    variance xs = if xs.length < 2 then 0
      else (xs.map fun x => square (x - mean xs)).sum / (xs.length - 1 : ℕ) := by
  rw [variance, numeral_zero, squaredDeviations, sum_eq, ofNat_eq]

theorem variance_eq_of_perm (h : xs.Perm ys) : variance xs = variance ys := by
  rw [variance_eq, variance_eq, h.length_eq, mean_eq_of_perm h, (h.map _).sum_eq]

/-- A change of unit changes the variance of a sample by the square of the scale. -/
theorem variance_map_affine (a b : ℝ) (xs : List ℝ) :
    variance (xs.map fun x => a * x + b) = square a * variance xs := by
  rw [variance_eq, variance_eq, List.length_map]
  split
  · rw [mul_zero]
  · have hne : xs ≠ [] := by
      rintro rfl
      simp at *
    have hdeviation : ∀ x, square (a * x + b - (a * mean xs + b)) =
        square a * square (x - mean xs) := by
      intro x
      simp only [square_eq]
      ring
    rw [mean_map_affine a b hne, List.map_map, ← mul_div_assoc, ← List.sum_map_mul_left]
    simp only [Function.comp_def, hdeviation]

@[simp] theorem variance_map_neg (xs : List ℝ) : variance (xs.map (-·)) = variance xs := by
  have h := variance_map_affine (-1) 0 xs
  simp only [neg_mul, one_mul, add_zero, square_neg] at h
  rw [h, square_eq, one_mul, one_mul]

theorem squaredDeviations_eq (centre : ℝ) (xs : List ℝ) :
    sum (squaredDeviations centre xs) = (xs.map fun x => square (x - centre)).sum :=
  sum_eq _

/-! ### Numbers in the unit interval -/

theorem clamp_eq_max_min (q : ℝ) : clamp 0 1 q = max 0 (min 1 q) := by
  rw [clamp]
  split
  · rename_i h
    rw [max_eq_left ((min_le_right _ _).trans h.le)]
  · rename_i h
    rw [not_lt] at h
    split
    · rename_i h1
      rw [min_eq_left h1.le, max_eq_right zero_le_one]
    · rename_i h1
      rw [min_eq_right (not_lt.1 h1), max_eq_right h]

theorem clamp_mem_Icc (q : ℝ) : clamp 0 1 q ∈ Set.Icc 0 1 := by
  rw [clamp_eq_max_min]
  exact ⟨le_max_left _ _, max_le zero_le_one (min_le_left _ _)⟩

theorem clamp_mono {q r : ℝ} (h : q ≤ r) : clamp 0 1 q ≤ clamp 0 1 r := by
  rw [clamp_eq_max_min, clamp_eq_max_min]
  gcongr

theorem clamp_eq_self {q : ℝ} (h0 : 0 ≤ q) (h1 : q ≤ 1) : clamp 0 1 q = q := by
  rw [clamp_eq_max_min, min_eq_right h1, max_eq_right h0]

theorem clamp_lt_one {p : ℝ} (h : p < 1) : clamp 0 1 p < 1 := by
  rw [clamp_eq_max_min]
  exact max_lt one_pos ((min_le_right _ _).trans_lt h)

/-! ### Positions in the sorted sample -/

theorem median_eq_of_perm (h : xs.Perm ys) : median xs = median ys := by
  rw [median, median, sorted_eq_of_perm h, h.length_eq, h.isEmpty_eq]

theorem quantile_eq_of_perm (h : xs.Perm ys) (q : ℝ) : quantile xs q = quantile ys q := by
  rw [quantile, quantile, quantile?, quantile?, sorted_eq_of_perm h, h.length_eq, h.isEmpty_eq]

theorem tukeyOutliers_eq_of_perm (h : xs.Perm ys) : tukeyOutliers xs = tukeyOutliers ys := by
  rw [tukeyOutliers, tukeyOutliers, h.length_eq, quantile_eq_of_perm h, quantile_eq_of_perm h,
    h.countP_eq]

/-- The value of a list at a position between two places, interpolated between the values there. -/
noncomputable def interpolated (s : List ℝ) (position : ℝ) : ℝ :=
  s.getD ⌊position⌋₊ 0 +
    (s.getD ⌈position⌉₊ 0 - s.getD ⌊position⌋₊ 0) * (position - ⌊position⌋₊)

theorem toNat_floor {p : ℝ} : toNat (floor p) = ⌊p⌋₊ := by
  show ⌊((⌊p⌋ : ℤ) : ℝ)⌋₊ = ⌊p⌋₊
  rw [← Int.floor_toNat, Int.floor_intCast, Int.floor_toNat]

theorem toNat_ceil {p : ℝ} : toNat (ceil p) = ⌈p⌉₊ := by
  show ⌊((⌈p⌉ : ℤ) : ℝ)⌋₊ = ⌈p⌉₊
  rw [← Int.floor_toNat, Int.floor_intCast, Int.ceil_toNat]

/-- The position of a level is one of the sample. -/
theorem ceil_position_lt (h : xs ≠ []) (q : ℝ) :
    ⌈clamp 0 1 q * (xs.length - 1 : ℕ)⌉₊ < (sorted xs).length := by
  have hlength : 0 < xs.length := List.length_pos_iff.2 h
  have hposition : clamp 0 1 q * (xs.length - 1 : ℕ) ≤ (xs.length - 1 : ℕ) :=
    mul_le_of_le_one_left (Nat.cast_nonneg _) (clamp_mem_Icc q).2
  have hceil : ⌈clamp 0 1 q * (xs.length - 1 : ℕ)⌉₊ ≤ xs.length - 1 := Nat.ceil_le.2 hposition
  rw [length_sorted]
  omega

/-- No level has a place outside of the sample. -/
theorem quantile?_eq_interpolated (h : xs ≠ []) (q : ℝ) :
    quantile? xs q = some (interpolated (sorted xs) (clamp 0 1 q * (xs.length - 1 : ℕ))) := by
  have hceil := ceil_position_lt h q
  have hfloor := (Nat.floor_le_ceil _).trans_lt hceil
  rw [interpolated, List.getD_eq_getElem _ _ hceil, List.getD_eq_getElem _ _ hfloor]
  simp only [quantile?, numeral_zero, numeral_one, ofNat_eq, toNat_floor, toNat_ceil,
    List.getElem?_eq_getElem hceil, List.getElem?_eq_getElem hfloor]
  rfl

/-- The value at a level lies at the share of the last position that the clamped level is. -/
theorem quantile_eq_interpolated (h : xs ≠ []) (q : ℝ) :
    quantile xs q = interpolated (sorted xs) (clamp 0 1 q * (xs.length - 1 : ℕ)) := by
  rw [quantile, if_neg (by rwa [List.isEmpty_iff]), quantile?_eq_interpolated h, Option.getD_some]

theorem quantile_eq (h : xs ≠ []) {q : ℝ} (h0 : 0 ≤ q) (h1 : q ≤ 1) :
    quantile xs q = interpolated (sorted xs) (q * (xs.length - 1 : ℕ)) := by
  rw [quantile_eq_interpolated h, clamp_eq_self h0 h1]

/-- Two neighbouring positions are at most one apart. -/
theorem ceil_eq_floor_or (p : ℝ) (h0 : 0 ≤ p) :
    ⌈p⌉₊ = ⌊p⌋₊ ∧ p = ⌊p⌋₊ ∨ ⌈p⌉₊ = ⌊p⌋₊ + 1 := by
  rcases Nat.lt_or_ge ⌊p⌋₊ ⌈p⌉₊ with hlt | hge
  · exact .inr (le_antisymm (Nat.ceil_le_floor_add_one p) hlt)
  · have heq : ⌈p⌉₊ = ⌊p⌋₊ := le_antisymm hge (Nat.floor_le_ceil p)
    refine .inl ⟨heq, le_antisymm ?_ (Nat.floor_le h0)⟩
    rw [← heq]
    exact Nat.le_ceil p

theorem floor_sub {m : ℕ} {p : ℝ} (h0 : 0 ≤ p) (hm : p ≤ m) : ⌊(m : ℝ) - p⌋₊ = m - ⌈p⌉₊ := by
  have hceil : ⌈p⌉₊ ≤ m := Nat.ceil_le.2 hm
  have hle : p ≤ ⌈p⌉₊ := Nat.le_ceil p
  have hlt : (⌈p⌉₊ : ℝ) < p + 1 := Nat.ceil_lt_add_one h0
  rw [Nat.floor_eq_iff (sub_nonneg.2 hm), Nat.cast_sub hceil]
  constructor <;> linarith

theorem ceil_sub {m : ℕ} {p : ℝ} (h0 : 0 ≤ p) (hm : p ≤ m) : ⌈(m : ℝ) - p⌉₊ = m - ⌊p⌋₊ := by
  have hfloor : ⌊(m : ℝ) - (m - p)⌋₊ = m - ⌈(m : ℝ) - p⌉₊ :=
    floor_sub (sub_nonneg.2 hm) (by linarith)
  have hceil : ⌈(m : ℝ) - p⌉₊ ≤ m := Nat.ceil_le.2 (by linarith)
  rw [sub_sub_cancel] at hfloor
  omega

/-- Reflection exchanges the values on the two sides of a position. -/
theorem interpolated_reflect {s : List ℝ} {m : ℕ} (hs : s.length = m + 1) {p : ℝ} (h0 : 0 ≤ p)
    (hm : p ≤ m) : interpolated (s.map (-·)).reverse (m - p) = -interpolated s p := by
  have hread : ∀ i ≤ m, (s.map (-·)).reverse.getD (m - i) 0 = -s.getD i 0 := by
    intro i hi
    have hlength : i < s.length := by omega
    rw [List.getD_reverse _ (by rw [List.length_map]; omega), List.length_map, hs,
      show m + 1 - 1 - (m - i) = i by omega,
      List.getD_eq_getElem _ _ (by rwa [List.length_map]), List.getD_eq_getElem _ _ hlength,
      List.getElem_map]
  have hceil : ⌈p⌉₊ ≤ m := Nat.ceil_le.2 hm
  have hfloor : ⌊p⌋₊ ≤ m := (Nat.floor_le_ceil p).trans hceil
  rw [interpolated, interpolated, floor_sub h0 hm, ceil_sub h0 hm, hread _ hceil, hread _ hfloor,
    Nat.cast_sub hceil]
  obtain ⟨heq, hp⟩ | heq := ceil_eq_floor_or p h0
  · rw [heq, ← hp]
    ring
  · rw [heq, Nat.cast_add, Nat.cast_one]
    ring

/-- **Reflection exchanges the levels of a sample.** -/
theorem quantile_map_neg (xs : List ℝ) {q : ℝ} (h0 : 0 ≤ q) (h1 : q ≤ 1) :
    quantile (xs.map (-·)) q = -quantile xs (1 - q) := by
  by_cases hne : xs = []
  · simp [quantile, hne]
  have hlength : (sorted xs).length = xs.length - 1 + 1 := by
    rw [length_sorted, Nat.sub_add_cancel (List.length_pos_iff.2 hne)]
  have hlast : (0 : ℝ) ≤ (xs.length - 1 : ℕ) := Nat.cast_nonneg _
  rw [quantile_eq (by simpa using hne) h0 h1,
    quantile_eq hne (sub_nonneg.2 h1) (by linarith), List.length_map, sorted_map_neg,
    ← interpolated_reflect hlength (mul_nonneg (sub_nonneg.2 h1) hlast)]
  · congr 1
    ring
  · exact mul_le_of_le_one_left hlast (by linarith)

/-- **Reflection keeps the outliers**, since it exchanges the two fences. -/
theorem tukeyOutliers_map_neg (xs : List ℝ) : tukeyOutliers (xs.map (-·)) = tukeyOutliers xs := by
  have hlower : quantile (xs.map (-·)) (1 / 4) = -quantile xs (3 / 4) := by
    rw [quantile_map_neg xs (by norm_num) (by norm_num)]
    norm_num
  have hupper : quantile (xs.map (-·)) (3 / 4) = -quantile xs (1 / 4) := by
    rw [quantile_map_neg xs (by norm_num) (by norm_num)]
    norm_num
  simp only [tukeyOutliers, numeral_one, List.length_map, hlower, hupper, List.countP_map]
  congr 1
  refine List.countP_congr fun x _ => ?_
  simp only [Function.comp_apply, Bool.or_eq_true, decide_eq_true_eq]
  constructor
  · rintro (h | h)
    · right; linarith
    · left; linarith
  · rintro (h | h)
    · right; linarith
    · left; linarith

end StudyAnalysis.Exact
