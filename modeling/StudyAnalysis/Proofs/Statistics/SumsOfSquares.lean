/-
**Sums of squares.**

The squared deviations of a sample add up to least about its mean, and to more about any other
centre by the squared distance of the two.  So the sum of squares of some groups about their common
mean is the sum of squares between the groups and that within them, and the share of the former is a
number between zero and one.

For ranks the total is known: it is that of the positions `1, …, n`, as far as ties leave it.  The
rank analysis of variance compares the sum of squares between groups with this total, and its effect
size is the share of the ranks' sum of squares that lies between the groups.

Main definitions:

* `StudyAnalysis.Exact.squaresAbout` — the sum of squared deviations from a centre;
* `StudyAnalysis.Exact.rankedGroups` — the ranks of all observations, group by group.

Main results:

* `StudyAnalysis.Exact.squaresAbout_eq_add` — the sum of squares about any centre;
* `StudyAnalysis.Exact.sumsOfSquares_add` — **the sums of squares between and within groups add
  up**;
* `StudyAnalysis.Exact.sum_square_rankIn` — **the sum of the squared ranks**, with ties;
* `StudyAnalysis.Exact.squaresAbout_rankIn` — the sum of squares of ranks about their mean;
* `StudyAnalysis.Exact.ranks_need_tieCorrection` — **the correction for ties is what ties take away
  from the ranks**;
* `StudyAnalysis.Exact.epsilonSquared_eq_etaSquared` — **the effect size of the rank analysis of
  variance is a share of the sum of squares of the ranks**.
-/

import StudyAnalysis.Proofs.Statistics.RankSums

set_option autoImplicit false
set_option relaxedAutoImplicit false

namespace StudyAnalysis.Exact

open Numeric Fallible

/-! ### Deviations from a centre -/

section Deviations

/-- The sum of the squared deviations of a sample from a centre. -/
noncomputable def squaresAbout (c : ℝ) (xs : List ℝ) : ℝ :=
  (xs.map fun x => square (x - c)).sum

theorem squaresAbout_nonneg (c : ℝ) (xs : List ℝ) : 0 ≤ squaresAbout c xs := by
  refine List.sum_nonneg fun t ht => ?_
  obtain ⟨x, -, rfl⟩ := List.mem_map.1 ht
  exact mul_self_nonneg (x - c)

theorem squaresAbout_append (c : ℝ) (xs ys : List ℝ) :
    squaresAbout c (xs ++ ys) = squaresAbout c xs + squaresAbout c ys := by
  rw [squaresAbout, List.map_append, List.sum_append]
  rfl

/-- The squares about one centre, from those about another one. -/
theorem squaresAbout_change (m c : ℝ) (xs : List ℝ) : squaresAbout c xs =
    squaresAbout m xs + 2 * (m - c) * (xs.sum - xs.length * m) + xs.length * square (m - c) := by
  induction xs with
  | nil => simp [squaresAbout]
  | cons x xs ih =>
      rw [squaresAbout] at ih ⊢
      rw [squaresAbout, List.map_cons, List.map_cons, List.sum_cons, List.sum_cons, List.sum_cons,
        ih, squaresAbout, List.length_cons, Nat.cast_add, Nat.cast_one]
      simp only [square_eq]
      ring

theorem length_mul_mean (xs : List ℝ) : xs.length * mean xs = xs.sum := by
  by_cases hne : xs = []
  · simp [hne]
  · rw [mean_eq, mul_div_cancel₀ _ (cast_length_pos hne).ne']

/-- **The squares about any centre** exceed those about the mean by the distance of the two. -/
theorem squaresAbout_eq_add (c : ℝ) (xs : List ℝ) :
    squaresAbout c xs = squaresAbout (mean xs) xs + xs.length * square (mean xs - c) := by
  rw [squaresAbout_change (mean xs), length_mul_mean, sub_self, mul_zero, add_zero]

/-- The square of a sum is at most the sum of the squares, times their number. -/
theorem square_sum_le (xs : List ℝ) :
    square xs.sum ≤ xs.length * (xs.map square).sum := by
  have hzero : squaresAbout 0 xs = (xs.map square).sum := by simp only [squaresAbout, sub_zero]
  have hdeviations : 0 ≤ xs.length * squaresAbout (mean xs) xs :=
    mul_nonneg (Nat.cast_nonneg _) (squaresAbout_nonneg (mean xs) xs)
  have hsplit := squaresAbout_eq_add 0 xs
  rw [sub_zero] at hsplit
  calc square xs.sum = xs.length * (xs.length * square (mean xs)) := by
        rw [← length_mul_mean]
        simp only [square_eq]
        ring
    _ ≤ xs.length * squaresAbout 0 xs := by
        rw [hsplit, mul_add]
        exact le_add_of_nonneg_left hdeviations
    _ = xs.length * (xs.map square).sum := by rw [hzero]

end Deviations

/-! ### Groups -/

section Groups

variable (groups : List (List ℝ))

theorem sumsOfSquares_fst :
    (sumsOfSquares groups).1 = (groups.map (betweenTerm (mean groups.flatten))).sum := by
  rw [sumsOfSquares, foldl_add_eq, numeral_zero, zero_add, grandMean_eq]

theorem sumsOfSquares_snd :
    (sumsOfSquares groups).2 = (groups.map fun g => squaresAbout (mean g) g).sum := by
  simp only [sumsOfSquares, foldl_add_eq, squaredDeviations_eq, squaresAbout, numeral_zero,
    zero_add]

/-- The squares of all observations about a centre, group by group. -/
theorem squaresAbout_flatten (c : ℝ) : squaresAbout c groups.flatten =
    (groups.map (betweenTerm c)).sum + (groups.map fun g => squaresAbout (mean g) g).sum := by
  induction groups with
  | nil => simp [squaresAbout]
  | cons g groups ih =>
      rw [List.flatten_cons, squaresAbout_append, ih, squaresAbout_eq_add c g, List.map_cons,
        List.map_cons, List.sum_cons, List.sum_cons, betweenTerm, count_eq]
      ring

/-- **The sums of squares between and within groups add up** to that of all observations. -/
theorem sumsOfSquares_add : (sumsOfSquares groups).1 + (sumsOfSquares groups).2 =
    squaresAbout (mean groups.flatten) groups.flatten := by
  rw [sumsOfSquares_fst, sumsOfSquares_snd, squaresAbout_flatten]

theorem sumsOfSquares_fst_nonneg : 0 ≤ (sumsOfSquares groups).1 := by
  rw [sumsOfSquares_fst]
  refine List.sum_nonneg fun t ht => ?_
  obtain ⟨g, -, rfl⟩ := List.mem_map.1 ht
  exact mul_nonneg (Nat.cast_nonneg g.length) (mul_self_nonneg _)

theorem sumsOfSquares_snd_nonneg : 0 ≤ (sumsOfSquares groups).2 := by
  rw [sumsOfSquares_snd]
  refine List.sum_nonneg fun t ht => ?_
  obtain ⟨g, -, rfl⟩ := List.mem_map.1 ht
  exact squaresAbout_nonneg (mean g) g

/-- The share of the squares between groups; without any squares it is nothing divided by
nothing. -/
theorem etaSquared_eq : etaSquared groups =
    (sumsOfSquares groups).1 / squaresAbout (mean groups.flatten) groups.flatten := by
  have htotal := sumsOfSquares_add groups
  rw [etaSquared]
  dsimp only
  rw [htotal, numeral_zero]
  split
  · rename_i hle
    rw [le_antisymm hle (squaresAbout_nonneg _ _), div_zero]
  · rfl

/-- **The share of the squares between groups** is a number from zero to one. -/
theorem etaSquared_mem_Icc : etaSquared groups ∈ Set.Icc 0 1 := by
  have hbetween := sumsOfSquares_fst_nonneg groups
  have hwithin := sumsOfSquares_snd_nonneg groups
  rw [etaSquared_eq, ← sumsOfSquares_add]
  exact ⟨div_nonneg hbetween (add_nonneg hbetween hwithin),
    div_le_one_of_le₀ (le_add_of_nonneg_right hwithin) (add_nonneg hbetween hwithin)⟩

end Groups

/-! ### Squares of ranks -/

section Ranks

variable {xs : List ℝ}

/-- The correction for ties, run by run. -/
theorem tieCorrection_append {run rest : List ℝ} {x : ℝ} (hrun : ∀ y ∈ run, y = x)
    (hrest : ∀ y ∈ rest, x < y) : tieCorrection (run ++ rest) =
      run.length * ((run.length : ℝ) ^ 2 - 1) + tieCorrection rest := by
  rw [tieCorrection_eq_sum, tieCorrection_eq_sum]
  exact sum_tiesIn_append (fun t => (t : ℝ) ^ 2 - 1) hrun hrest

theorem sum_square_rankIn_of_sorted (h : xs.Pairwise (· ≤ ·)) :
    (xs.map fun x => square (rankIn xs x)).sum =
      xs.length * (xs.length + 1) * (2 * xs.length + 1) / 6 - tieCorrection xs / 12 := by
  induction xs, h using run_induction with
  | nil => simp [tieCorrection_eq_sum]
  | append x run rest _ _ hrun hrest hruns ih =>
      have hfirst : run.map (fun y => square (rankIn (run ++ rest) y)) =
          List.replicate run.length (square ((run.length + 1) / 2 : ℝ)) := by
        rw [← List.map_const']
        refine List.map_congr_left fun y hy => ?_
        rw [show y = x from hrun y hy, rankIn_append_of_eq hrun hrest]
      -- the ranks of the others are moved up by the length of the run
      have hothers : (rest.map fun y => square (rankIn (run ++ rest) y)).sum =
          squaresAbout (-run.length) (rest.map (rankIn rest)) := by
        rw [squaresAbout, List.map_map]
        refine congrArg List.sum (List.map_congr_left fun y hy => ?_)
        rw [rankIn_append_of_lt fun z hz => (hrun z hz).trans_lt (hrest y hy), Function.comp_apply,
          sub_neg_eq_add, add_comm]
      have hzero : squaresAbout 0 (rest.map (rankIn rest)) =
          (rest.map fun y => square (rankIn rest y)).sum := by
        simp only [squaresAbout, List.map_map, Function.comp_def, sub_zero]
      rw [List.map_append, List.sum_append, hfirst, hothers, squaresAbout_change 0, hzero, ih,
        tieCorrection_append hrun hrest, sum_map_rankIn, List.sum_replicate, nsmul_eq_mul,
        List.length_map, List.length_append, Nat.cast_add]
      simp only [square_eq]
      ring

/-- **The squares of the ranks add up** to those of the positions, less what ties take away. -/
theorem sum_square_rankIn (xs : List ℝ) : (xs.map fun x => square (rankIn xs x)).sum =
    xs.length * (xs.length + 1) * (2 * xs.length + 1) / 6 - tieCorrection xs / 12 := by
  have hperm := sorted_perm xs
  have h := sum_square_rankIn_of_sorted (pairwise_sorted xs)
  rw [rankIn_eq_of_perm hperm, (hperm.map _).sum_eq, tieCorrection_eq_of_perm hperm,
    hperm.length_eq] at h
  exact h

theorem mean_ranks (h : xs ≠ []) : mean (xs.map (rankIn xs)) = (xs.length + 1) / 2 := by
  have hlength := (cast_length_pos h).ne'
  rw [mean_eq, sum_map_rankIn, List.length_map]
  field_simp

/-- **The squares of the ranks about their mean** are those of the positions, less what ties take
away. -/
theorem squaresAbout_rankIn (xs : List ℝ) :
    squaresAbout ((xs.length + 1) / 2) (xs.map (rankIn xs)) =
      ((xs.length : ℝ) ^ 3 - xs.length - tieCorrection xs) / 12 := by
  have hzero : squaresAbout 0 (xs.map (rankIn xs)) =
      (xs.map fun x => square (rankIn xs x)).sum := by
    simp only [squaresAbout, List.map_map, Function.comp_def, sub_zero]
  rw [squaresAbout_change 0, hzero, sum_square_rankIn, sum_map_rankIn, List.length_map, square_eq]
  ring

/-- Ties leave a share of the squares of the positions. -/
theorem squaresAbout_ranks (h : 2 ≤ xs.length) :
    squaresAbout ((xs.length + 1) / 2) (xs.map (rankIn xs)) =
      ((xs.length : ℝ) ^ 3 - xs.length) / 12 * tieFactor xs := by
  have hcube := (cube_sub_self_pos h).ne'
  rw [squaresAbout_rankIn, tieFactor]
  generalize (xs.length : ℝ) ^ 3 - xs.length = c at hcube ⊢
  field_simp

/-- Ties never take away more than there is. -/
theorem tieCorrection_le (xs : List ℝ) : tieCorrection xs ≤ (xs.length : ℝ) ^ 3 - xs.length := by
  have hsquares := squaresAbout_nonneg ((xs.length + 1) / 2) (xs.map (rankIn xs))
  rw [squaresAbout_rankIn] at hsquares
  linarith

/-- **The correction for ties is the one that the ranks need.**  The ranks of `n` values add up to
`n (n + 1) / 2`, their squares to `n (n + 1) (2 n + 1) / 6` less a twelfth of the correction, and the
squares of their distances from their mean to a twelfth of what the correction leaves of `n³ - n`.
The correction is between nothing and `n³ - n`, and nothing exactly if no two values are equal. -/
theorem ranks_need_tieCorrection (xs : List ℝ) :
    (ranks xs).sum = xs.length * (xs.length + 1) / 2 ∧
    ((ranks xs).map (· ^ 2)).sum =
      xs.length * (xs.length + 1) * (2 * xs.length + 1) / 6 - tieCorrection xs / 12 ∧
    ((ranks xs).map fun r : ℝ => (r - (xs.length + 1) / 2) ^ 2).sum =
      ((xs.length : ℝ) ^ 3 - xs.length - tieCorrection xs) / 12 ∧
    0 ≤ tieCorrection xs ∧ tieCorrection xs ≤ (xs.length : ℝ) ^ 3 - xs.length ∧
    (tieCorrection xs = 0 ↔ xs.Nodup) := by
  have hsquares := sum_square_rankIn xs
  have hspread := squaresAbout_rankIn xs
  simp only [square_eq, ← sq] at hsquares
  simp only [squaresAbout, square_eq, ← sq] at hspread
  rw [ranks_eq, List.map_map]
  exact ⟨sum_map_rankIn xs, hsquares, hspread, tieCorrection_nonneg xs, tieCorrection_le xs,
    tieCorrection_eq_zero_iff xs⟩

theorem tieFactor_nonneg (h : 2 ≤ xs.length) : 0 ≤ tieFactor xs := by
  rw [tieFactor, sub_nonneg, div_le_one (cube_sub_self_pos h)]
  exact tieCorrection_le xs

end Ranks

/-! ### Ranks of groups -/

section RankedGroups

variable (groups : List (List ℝ))

/-- The ranks of all observations of some groups, group by group. -/
noncomputable def rankedGroups : List (List ℝ) :=
  splitLike groups (ranks groups.flatten)

theorem rankedGroups_eq : rankedGroups groups = groups.map (List.map (rankIn groups.flatten)) := by
  rw [rankedGroups, ranks_eq, splitLike_map]

theorem flatten_rankedGroups :
    (rankedGroups groups).flatten = groups.flatten.map (rankIn groups.flatten) := by
  rw [rankedGroups_eq, List.map_flatten]

variable {groups}

/-- The rank analysis of variance weighs the groups as the analysis of variance of the ranks. -/
theorem rankSpread_eq_sumsOfSquares (h : groups.flatten ≠ []) :
    rankSpread groups = (sumsOfSquares (rankedGroups groups)).1 := by
  rw [sumsOfSquares_fst, flatten_rankedGroups, mean_ranks h, rankSpread, foldl_add_eq,
    numeral_zero, numeral_one, zero_add, ofNat_eq]
  refine congrArg List.sum (List.map_congr_left fun g _ => ?_)
  rw [betweenTerm, mean_eq, sum_eq, count_eq]

/-- Groups that are large enough have at least two observations. -/
theorem two_le_length_flatten (h : requireGroups groups = .ok ()) : 2 ≤ groups.flatten.length := by
  obtain ⟨hmany, hall⟩ := requireGroups_eq_ok_iff.1 h
  obtain ⟨g, rest, rfl⟩ := List.exists_cons_of_length_pos (by omega : 0 < groups.length)
  have hg := hall g List.mem_cons_self
  rw [List.flatten_cons, List.length_append]
  omega

theorem epsilonSquared_eq {n : ℕ} (hn : 2 ≤ n) (h : ℝ) : epsilonSquared h n = h / (n - 1) := by
  rw [epsilonSquared, if_neg (not_lt.2 hn), ofNat_eq, numeral_one]

/-- The statistic over the degrees of freedom of the observations compares the groups with the total
sum of squares of the ranks. -/
theorem epsilonSquared_rankSpread (hn : 2 ≤ groups.flatten.length) :
    let n : ℝ := groups.flatten.length
    epsilonSquared (rankSpread groups * (12 / (n * (n + 1))) / tieFactor groups.flatten)
      groups.flatten.length = etaSquared (rankedGroups groups) := by
  intro n
  have hne : groups.flatten ≠ [] := List.ne_nil_of_length_pos (by omega)
  have hone : n - 1 ≠ 0 := (sub_pos.2 (Nat.one_lt_cast.2 hn)).ne'
  have hfactor : n ^ 3 - n = n * (n + 1) * (n - 1) := by ring
  rw [epsilonSquared_eq hn, etaSquared_eq, flatten_rankedGroups, mean_ranks hne,
    squaresAbout_ranks hn, ← rankSpread_eq_sumsOfSquares hne,
    show (groups.flatten.length : ℝ) = n from rfl, hfactor]
  field_simp

/-- **The effect size of the rank analysis of variance** is the share of the sum of squares of the
ranks that lies between the groups. -/
theorem epsilonSquared_eq_etaSquared [Tails ℝ] {out : TestOutput ℝ}
    (h : kruskalWallis groups = .ok out) :
    epsilonSquared out.statistic groups.flatten.length = etaSquared (rankedGroups groups) := by
  obtain ⟨_, hrequire, -⟩ := bind_eq_ok_iff.1 h
  rw [kruskalWallis_eq hrequire] at h
  split at h
  · cases h
  · obtain rfl := Except.ok.inj h
    exact epsilonSquared_rankSpread (two_le_length_flatten hrequire)

end RankedGroups

end StudyAnalysis.Exact
