/-
**The laws of quantiles.**

A quantile is read off the sorted sample at a position between two places, by interpolation between
the values there.  So it lies between these two values, and within one gap between two places it
grows with the position, as the sorted values do.  Two positions that are not within one gap have a
place between them, whose value separates their quantiles.

A level outside of the unit interval is that of the nearer end, so that no level has a place outside
of the sample, and the quantiles range from the least value to the greatest.  The middle of the
sample is at the level one half.  A map that is affine and keeps the order can be applied to the
values or to the quantile; one that reverses the order exchanges the two fences around the
quartiles.

Main definitions:

* `StudyAnalysis.Exact.QuantileLaws` — what holds of the quantiles of a sample.

Main results:

* `StudyAnalysis.Exact.getD_floor_le_interpolated`,
  `StudyAnalysis.Exact.interpolated_le_getD_ceil` — an interpolated value lies between its
  neighbours;
* `StudyAnalysis.Exact.interpolated_le_interpolated`, `StudyAnalysis.Exact.quantile_mono` —
  **quantiles are monotone**;
* `StudyAnalysis.Exact.mean_mem_Icc`, `StudyAnalysis.Exact.quantile_mem_Icc` — **means and quantiles
  stay within the bounds of a sample**;
* `StudyAnalysis.Exact.quantile_map_affine`, `StudyAnalysis.Exact.quantile_half` — quantiles under
  affine maps, and the median as a quantile;
* `StudyAnalysis.Exact.tukeyOutliers_map_affine` — **outliers do not depend on unit, origin and
  direction of the scale**;
* `StudyAnalysis.Exact.quantile_laws` — **the laws of quantiles**.
-/

import StudyAnalysis.Proofs.Statistics.Descriptive

set_option autoImplicit false
set_option relaxedAutoImplicit false

namespace StudyAnalysis.Exact

open Numeric

/-! ### Between two places of a list -/

/-- At a place, the interpolated value is the value there. -/
theorem interpolated_natCast (s : List ℝ) (i : ℕ) : interpolated s i = s.getD i 0 := by
  rw [interpolated, Nat.floor_natCast, Nat.ceil_natCast, sub_self, zero_mul, add_zero]

/-- Midway between two places, it is the mean of the values there. -/
theorem interpolated_midway (s : List ℝ) (i : ℕ) :
    interpolated s (i + 1 / 2) = (s.getD i 0 + s.getD (i + 1) 0) / 2 := by
  have hfloor : ⌊(i + 1 / 2 : ℝ)⌋₊ = i := by
    rw [Nat.floor_eq_iff (by positivity)]
    constructor <;> linarith
  have hceil : ⌈(i + 1 / 2 : ℝ)⌉₊ = i + 1 := by
    rw [Nat.ceil_eq_iff (Nat.succ_ne_zero i), Nat.succ_sub_one, Nat.cast_succ]
    constructor <;> linarith
  rw [interpolated, hfloor, hceil]
  ring

/-- **Interpolation commutes with affine maps.** -/
theorem interpolated_map_affine {s : List ℝ} {p : ℝ} (hp : ⌈p⌉₊ < s.length) (a b : ℝ) :
    interpolated (s.map fun x => a * x + b) p = a * interpolated s p + b := by
  have hread : ∀ i < s.length, (s.map fun x => a * x + b).getD i 0 = a * s.getD i 0 + b := by
    intro i hi
    rw [List.getD_eq_getElem _ _ (by rwa [List.length_map]), List.getD_eq_getElem _ _ hi,
      List.getElem_map]
  rw [interpolated, interpolated, hread _ hp, hread _ ((Nat.floor_le_ceil p).trans_lt hp)]
  ring

section Ascending

variable {s : List ℝ} (hs : s.Pairwise (· ≤ ·))

include hs

theorem getD_le_getD {i j : ℕ} (hij : i ≤ j) (hj : j < s.length) : s.getD i 0 ≤ s.getD j 0 := by
  have hi : i < s.length := hij.trans_lt hj
  rw [List.getD_eq_getElem _ _ hi, List.getD_eq_getElem _ _ hj]
  obtain rfl | hlt := hij.eq_or_lt
  · exact le_rfl
  · exact List.pairwise_iff_getElem.1 hs i j hi hj hlt

section Bounds

variable {p : ℝ} (hp : ⌈p⌉₊ < s.length)

include hp

/-- The values at two neighbouring places are in order. -/
theorem gap_nonneg : 0 ≤ s.getD ⌈p⌉₊ 0 - s.getD ⌊p⌋₊ 0 :=
  sub_nonneg.2 (getD_le_getD hs (Nat.floor_le_ceil p) hp)

theorem getD_floor_le_interpolated (h0 : 0 ≤ p) : s.getD ⌊p⌋₊ 0 ≤ interpolated s p := by
  have hshare : 0 ≤ p - ⌊p⌋₊ := sub_nonneg.2 (Nat.floor_le h0)
  exact le_add_of_nonneg_right (mul_nonneg (gap_nonneg hs hp) hshare)

theorem interpolated_le_getD_ceil : interpolated s p ≤ s.getD ⌈p⌉₊ 0 := by
  have hshare : p - ⌊p⌋₊ ≤ 1 := by linarith [Nat.lt_floor_add_one p]
  have hstep := mul_le_of_le_one_right (gap_nonneg hs hp) hshare
  rw [interpolated]
  linarith

end Bounds

/-- **An interpolated value grows with its position.** -/
theorem interpolated_le_interpolated {p q : ℝ} (h0 : 0 ≤ p) (hpq : p ≤ q) (hq : ⌈q⌉₊ < s.length) :
    interpolated s p ≤ interpolated s q := by
  have hceil : ⌈p⌉₊ ≤ ⌈q⌉₊ := Nat.ceil_le_ceil hpq
  have hfloor : ⌊p⌋₊ ≤ ⌊q⌋₊ := Nat.floor_le_floor hpq
  have hp : ⌈p⌉₊ < s.length := hceil.trans_lt hq
  obtain hseparate | hlt := le_or_gt ⌈p⌉₊ ⌊q⌋₊
  · -- the place above `p` is not above `q`
    have hlast : ⌊q⌋₊ < s.length := (Nat.floor_le_ceil q).trans_lt hq
    calc interpolated s p ≤ s.getD ⌈p⌉₊ 0 := interpolated_le_getD_ceil hs hp
      _ ≤ s.getD ⌊q⌋₊ 0 := getD_le_getD hs hseparate hlast
      _ ≤ interpolated s q := getD_floor_le_interpolated hs hq (h0.trans hpq)
  · -- both positions are in one gap
    have hpgap : ⌈p⌉₊ ≤ ⌊p⌋₊ + 1 := Nat.ceil_le_floor_add_one p
    have hqgap : ⌈q⌉₊ ≤ ⌊q⌋₊ + 1 := Nat.ceil_le_floor_add_one q
    have hsame : ⌊p⌋₊ = ⌊q⌋₊ := by omega
    have hsame' : ⌈p⌉₊ = ⌈q⌉₊ := by omega
    have hgap := gap_nonneg hs hq
    rw [interpolated, interpolated, hsame, hsame']
    gcongr

end Ascending

/-- The values of a sample are those at the places of the sorted sample. -/
theorem mem_iff_getD_sorted {xs : List ℝ} {x : ℝ} :
    x ∈ xs ↔ ∃ i < xs.length, (sorted xs).getD i 0 = x := by
  rw [← (sorted_perm xs).mem_iff, List.mem_iff_getElem, ← length_sorted xs]
  refine exists_congr fun i => (exists_congr fun hi => ?_).trans exists_prop
  rw [List.getD_eq_getElem _ _ hi]

/-! ### Levels -/

section Samples

variable {xs : List ℝ} (hne : xs ≠ [])

include hne

/-- **No level has a place outside of the sample.** -/
theorem quantile?_eq_some (q : ℝ) : quantile? xs q = some (quantile xs q) := by
  rw [quantile_eq_interpolated hne, quantile?_eq_interpolated hne]

/-- **Quantiles are monotone in their level.** -/
theorem quantile_mono {q r : ℝ} (h : q ≤ r) : quantile xs q ≤ quantile xs r := by
  rw [quantile_eq_interpolated hne, quantile_eq_interpolated hne]
  refine interpolated_le_interpolated (pairwise_sorted xs)
    (mul_nonneg (clamp_mem_Icc q).1 (Nat.cast_nonneg _)) ?_ (ceil_position_lt hne r)
  exact mul_le_mul_of_nonneg_right (clamp_mono h) (Nat.cast_nonneg _)

/-- **The lowest level is that of the least value.** -/
theorem quantile_of_nonpos {q : ℝ} (hq : q ≤ 0) : quantile xs q = xs.min hne := by
  have hlength : 0 < xs.length := List.length_pos_iff.2 hne
  have hfirst : quantile xs q = (sorted xs).getD 0 0 := by
    rw [quantile_eq_interpolated hne, clamp_eq_max_min, max_eq_left (min_le_of_right_le hq),
      zero_mul, ← interpolated_natCast, Nat.cast_zero]
  rw [hfirst]
  apply le_antisymm
  · obtain ⟨i, hi, hmin⟩ := mem_iff_getD_sorted.1 (List.min_mem hne)
    rw [← hmin]
    exact getD_le_getD (pairwise_sorted xs) (Nat.zero_le i) (by rwa [length_sorted])
  · exact List.min_le_of_mem (mem_iff_getD_sorted.2 ⟨0, hlength, rfl⟩)

/-- **The highest level is that of the greatest value.** -/
theorem quantile_of_one_le {q : ℝ} (hq : 1 ≤ q) : quantile xs q = xs.max hne := by
  have hlength : 0 < xs.length := List.length_pos_iff.2 hne
  have hlast : quantile xs q = (sorted xs).getD (xs.length - 1) 0 := by
    rw [quantile_eq_interpolated hne, clamp_eq_max_min, min_eq_left hq, max_eq_right zero_le_one,
      one_mul, interpolated_natCast]
  rw [hlast]
  apply le_antisymm
  · exact List.le_max_of_mem (mem_iff_getD_sorted.2 ⟨_, Nat.sub_one_lt_of_lt hlength, rfl⟩)
  · obtain ⟨i, hi, hmax⟩ := mem_iff_getD_sorted.1 (List.max_mem hne)
    rw [← hmax]
    exact getD_le_getD (pairwise_sorted xs) (Nat.le_sub_one_of_lt hi)
      (by rw [length_sorted]; omega)

/-- **The median is the quantile at the level one half.** -/
theorem quantile_half : quantile xs (1 / 2) = median xs := by
  have hlength : 0 < xs.length := List.length_pos_iff.2 hne
  have hempty : xs.isEmpty = false := List.isEmpty_eq_false_iff.2 hne
  rw [quantile_eq hne (by norm_num) (by norm_num)]
  simp only [median, hempty, Bool.false_eq_true, if_false, numeral_zero]
  obtain ⟨k, heven | hodd⟩ := Nat.even_or_odd' xs.length
  · -- the position is midway between the two middle places
    obtain ⟨j, rfl⟩ : ∃ j, k = j + 1 := ⟨k - 1, by omega⟩
    have hposition : 1 / 2 * ((xs.length - 1 : ℕ) : ℝ) = j + 1 / 2 := by
      rw [heven, show 2 * (j + 1) - 1 = 2 * j + 1 by omega]
      push_cast
      ring
    rw [hposition, interpolated_midway, if_pos (by omega), show xs.length / 2 = j + 1 by omega]
    rfl
  · -- the position is the middle place
    have hposition : 1 / 2 * ((xs.length - 1 : ℕ) : ℝ) = k := by
      rw [hodd, Nat.add_sub_cancel]
      push_cast
      ring
    rw [hposition, interpolated_natCast, if_neg (by omega), show xs.length / 2 = k by omega]

/-- **Quantiles change with unit and origin as the values do.** -/
theorem quantile_map_affine {a : ℝ} (ha : 0 ≤ a) (b q : ℝ) :
    quantile (xs.map fun x => a * x + b) q = a * quantile xs q + b := by
  have hmono : Monotone fun x : ℝ => a * x + b := by
    intro x y h
    dsimp only
    gcongr
  rw [quantile_eq_interpolated (by simpa using hne), quantile_eq_interpolated hne,
    List.length_map, sorted_map_of_monotone hmono,
    interpolated_map_affine (ceil_position_lt hne q)]

section Bounds

variable {low high : ℝ} (hbounds : ∀ x ∈ xs, x ∈ Set.Icc low high)

include hbounds

/-- **Quantiles stay within the bounds of a sample.** -/
theorem quantile_mem_Icc (q : ℝ) : quantile xs q ∈ Set.Icc low high := by
  have hplace : ∀ i < (sorted xs).length, (sorted xs).getD i 0 ∈ Set.Icc low high := by
    intro i hi
    exact hbounds _ (mem_iff_getD_sorted.2 ⟨i, by rwa [← length_sorted xs], rfl⟩)
  have h0 := mul_nonneg (clamp_mem_Icc q).1 (Nat.cast_nonneg (xs.length - 1))
  have hceil := ceil_position_lt hne q
  have hfloor := (Nat.floor_le_ceil _).trans_lt hceil
  rw [quantile_eq_interpolated hne]
  exact ⟨(hplace _ hfloor).1.trans (getD_floor_le_interpolated (pairwise_sorted xs) hceil h0),
    (interpolated_le_getD_ceil (pairwise_sorted xs) hceil).trans (hplace _ hceil).2⟩

/-- **So does the mean.** -/
theorem mean_mem_Icc : mean xs ∈ Set.Icc low high := by
  have hlength := cast_length_pos hne
  rw [mean_eq]
  constructor
  · rw [le_div_iff₀ hlength, mul_comm, ← nsmul_eq_mul]
    exact List.card_nsmul_le_sum _ _ fun x hx => (hbounds x hx).1
  · rw [div_le_iff₀ hlength, mul_comm, ← nsmul_eq_mul]
    exact List.sum_le_card_nsmul _ _ fun x hx => (hbounds x hx).2

end Bounds

/-- Quantiles lie between the least value and the greatest. -/
theorem quantile_mem_Icc_min_max (q : ℝ) : quantile xs q ∈ Set.Icc (xs.min hne) (xs.max hne) :=
  quantile_mem_Icc hne (fun _ hx => ⟨List.min_le_of_mem hx, List.le_max_of_mem hx⟩) q

end Samples

/-! ### Outliers -/

/-- If the scale keeps its direction, the fences move with the quartiles. -/
theorem tukeyOutliers_map_of_pos {a : ℝ} (ha : 0 < a) (b : ℝ) (xs : List ℝ) :
    tukeyOutliers (xs.map fun x => a * x + b) = tukeyOutliers xs := by
  rw [tukeyOutliers, tukeyOutliers, List.length_map]
  split
  · rfl
  rename_i hfew
  have hne : xs ≠ [] := by
    rintro rfl
    exact hfew (by decide)
  have hlower (c q1 q3 : ℝ) :
      a * q1 + b - c * (a * q3 + b - (a * q1 + b)) = a * (q1 - c * (q3 - q1)) + b := by
    ring
  have hupper (c q1 q3 : ℝ) :
      a * q3 + b + c * (a * q3 + b - (a * q1 + b)) = a * (q3 + c * (q3 - q1)) + b := by
    ring
  simp only [quantile_map_affine hne ha.le, hlower, hupper, List.countP_map, Function.comp_def,
    add_lt_add_iff_right, mul_lt_mul_iff_right₀ ha]

/-- **Outliers stay outliers under every affine map that is not constant.** -/
theorem tukeyOutliers_map_affine {a : ℝ} (ha : a ≠ 0) (b : ℝ) (xs : List ℝ) :
    tukeyOutliers (xs.map fun x => a * x + b) = tukeyOutliers xs := by
  obtain hneg | hpos := lt_or_gt_of_ne ha
  · -- the sample is reflected first
    have hreflect : xs.map (fun x => a * x + b) = (xs.map (-·)).map fun x => -a * x + b := by
      rw [List.map_map]
      exact List.map_congr_left fun x _ => by rw [Function.comp_apply, neg_mul_neg]
    rw [hreflect, tukeyOutliers_map_of_pos (neg_pos.2 hneg), tukeyOutliers_map_neg]
  · exact tukeyOutliers_map_of_pos hpos b xs

/-! ### The laws -/

/-- **The laws of the quantiles of a sample**, at every real level. -/
structure QuantileLaws (xs : List ℝ) (hne : xs ≠ []) : Prop where
  /-- No level has a place outside of the sample. -/
  in_range (q : ℝ) : quantile? xs q = some (quantile xs q)
  monotone : Monotone (quantile xs)
  min_le (q : ℝ) : xs.min hne ≤ quantile xs q
  le_max (q : ℝ) : quantile xs q ≤ xs.max hne
  eq_min (q : ℝ) (hq : q ≤ 0) : quantile xs q = xs.min hne
  eq_max (q : ℝ) (hq : 1 ≤ q) : quantile xs q = xs.max hne
  /-- The order of the sample is irrelevant. -/
  eq_of_perm (ys : List ℝ) (h : ys.Perm xs) (q : ℝ) : quantile ys q = quantile xs q
  /-- Reflection exchanges the levels. -/
  map_neg (q : ℝ) (h0 : 0 ≤ q) (h1 : q ≤ 1) :
    quantile (xs.map (-·)) q = -quantile xs (1 - q)
  map_affine (a b : ℝ) (ha : 0 ≤ a) (q : ℝ) :
    quantile (xs.map fun x => a * x + b) q = a * quantile xs q + b
  half : quantile xs (1 / 2) = median xs
  /-- Outliers do not depend on unit, origin and direction of the scale. -/
  outliers (a b : ℝ) (ha : a ≠ 0) :
    tukeyOutliers (xs.map fun x => a * x + b) = tukeyOutliers xs

/-- **The quantiles of every sample obey the laws.** -/
theorem quantile_laws {xs : List ℝ} (hne : xs ≠ []) : QuantileLaws xs hne where
  in_range := quantile?_eq_some hne
  monotone _ _ := quantile_mono hne
  min_le q := (quantile_mem_Icc_min_max hne q).1
  le_max q := (quantile_mem_Icc_min_max hne q).2
  eq_min _ := quantile_of_nonpos hne
  eq_max _ := quantile_of_one_le hne
  eq_of_perm _ := quantile_eq_of_perm
  map_neg _ := quantile_map_neg xs
  map_affine _ b ha := quantile_map_affine hne ha b
  half := quantile_half hne
  outliers _ b ha := tukeyOutliers_map_affine ha b xs

/-- A sample with one value far from the others. -/
theorem quantile_laws_of_far_value :
    let data : List ℝ := [1, 2, 2, 3, 3, 3, 4, 4, 5, 100]
    data ≠ [] ∧ quantile data (-1) = 1 ∧ quantile data 2 = 100 ∧
      quantile? data (1 / 4) = some (9 / 4) ∧ quantile (data.map (-·)) (1 / 4) = -4 ∧
      quantile data (1 / 2) = median data ∧ tukeyOutliers data = 1 ∧
      tukeyOutliers (data.map fun x => -2 * x + 7) = 1 := by
  intro data
  have hne : data ≠ [] := List.cons_ne_nil _ _
  have laws : QuantileLaws data hne := quantile_laws hne
  have hsorted : sorted data = data := by
    refine (eq_sorted (List.Perm.refl data) ?_).symm
    norm_num [data]
  have hlower : quantile data (1 / 4) = 9 / 4 := by
    rw [quantile_eq hne (by norm_num) (by norm_num), hsorted, interpolated]
    norm_num [data]
  have hupper : quantile data (3 / 4) = 4 := by
    rw [quantile_eq hne (by norm_num) (by norm_num), hsorted, interpolated]
    norm_num [data]
  have houtliers : tukeyOutliers data = 1 := by
    simp only [tukeyOutliers, numeral_one]
    rw [hlower, hupper]
    norm_num [data]
  refine ⟨hne, ?_, ?_, ?_, ?_, laws.half, houtliers, ?_⟩
  · rw [laws.eq_min _ (by norm_num), List.min_eq_iff]
    norm_num [data]
  · rw [laws.eq_max _ (by norm_num), List.max_eq_iff]
    norm_num [data]
  · rw [laws.in_range, hlower]
  · rw [laws.map_neg _ (by norm_num) (by norm_num)]
    norm_num [hupper]
  · rw [laws.outliers _ _ (by norm_num), houtliers]

end StudyAnalysis.Exact
