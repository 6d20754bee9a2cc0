/-
**Rank sums count pairs.**

The statistic of the rank-sum test is computed from the ranks of one sample among the values of both.
In exact arithmetic it is a number of pairs: every pair of a value of the first sample and a smaller
value of the second counts once, and every pair of equal values counts half.  The variance of the
statistic vanishes only if all values are tied.  For two groups the rank analysis of variance is the
square of the standardised rank sum, ties included.

Main definitions:

* `StudyAnalysis.Exact.pairsWith` — the number of pairs of two samples that stand in a relation.

Main results:

* `StudyAnalysis.Exact.uStatistic_eq_pairs` — the statistic counts pairs;
* `StudyAnalysis.Exact.uVariance_pos_iff` — when its variance does not vanish;
* `StudyAnalysis.Exact.mannWhitneyU_counts_pairs` — **the rank-sum test counts pairs**, and its
  effect size compares the pairs of either direction;
* `StudyAnalysis.Exact.kruskalWallis_pair_eq_square` — **the rank analysis of variance of two groups
  is the square of the standardised rank sum**.
-/

import StudyAnalysis.Proofs.Statistics.Groups
import StudyAnalysis.Proofs.Statistics.TwoSamples

set_option autoImplicit false
set_option relaxedAutoImplicit false

namespace StudyAnalysis.Exact

open Numeric Fallible

/-! ### Pairs -/

section Pairs

/-- The number of pairs of a value of the first sample and a value of the second that stand in a
relation. -/
def pairsWith (r : ℝ → ℝ → Prop) [DecidableRel r] (a b : List ℝ) : ℕ :=
  (a ×ˢ b).countP fun p => decide (r p.1 p.2)

variable (r : ℝ → ℝ → Prop) [DecidableRel r] (a b : List ℝ)

/-- Pairs are counted value by value of the first sample. -/
theorem pairsWith_eq_sum :
    pairsWith r a b = (a.map fun x => b.countP fun y => decide (r x y)).sum := by
  show (a.flatMap fun x => b.map (x, ·)).countP (fun p => decide (r p.1 p.2)) = _
  rw [List.countP_flatMap]
  refine congrArg List.sum (List.map_congr_left fun x _ => ?_)
  rw [Function.comp_apply, List.countP_map]
  rfl

/-- All pairs stand in a relation. -/
theorem pairsWith_eq_length_iff :
    pairsWith r a b = a.length * b.length ↔ ∀ x ∈ a, ∀ y ∈ b, r x y := by
  rw [pairsWith, ← List.length_product, List.countP_eq_length, Prod.forall]
  simp only [List.mem_product, decide_eq_true_eq, and_imp]
  exact ⟨fun h x hx y hy => h x y hx hy, fun h x y hx hy => h x hx y hy⟩

/-- Of the two values of a pair one is greater, or they are equal. -/
theorem pairsWith_sides : pairsWith (· > ·) a b + pairsWith (· = ·) a b + pairsWith (· < ·) a b =
    a.length * b.length := by
  have hvalue : ∀ x, (b.countP fun y => decide (x > y)) + (b.countP fun y => decide (x = y)) +
      (b.countP fun y => decide (x < y)) = b.length := by
    intro x
    simp only [gt_iff_lt, eq_comm (a := x)]
    exact countP_sides b x
  simp only [pairsWith_eq_sum, ← List.sum_map_add, hvalue, List.map_const', List.sum_replicate,
    smul_eq_mul]

end Pairs

/-! ### The statistic and its variance -/

section Statistic

variable {a b : List ℝ}

/-- A rank among two samples is a rank in the first one and a count in the second. -/
theorem rankIn_append (a b : List ℝ) (x : ℝ) : rankIn (a ++ b) x =
    rankIn a x + (b.countP fun y => decide (x > y)) + (b.countP fun y => decide (x = y)) / 2 := by
  simp only [rankIn, List.countP_append, Nat.cast_add, gt_iff_lt, eq_comm (a := x)]
  ring

/-- **The rank statistic counts pairs**: those with a greater value in the first sample, and half of
those with equal values. -/
theorem uStatistic_eq_pairs (a b : List ℝ) :
    uStatistic a b = pairsWith (· > ·) a b + pairsWith (· = ·) a b / 2 := by
  have hpairs (r : ℝ → ℝ → Prop) [DecidableRel r] : (pairsWith r a b : ℝ) =
      (a.map fun x => ((b.countP fun y => decide (r x y) : ℕ) : ℝ)).sum := by
    rw [pairsWith_eq_sum, Nat.cast_list_sum, List.map_map]
    rfl
  have hranks : (a.map (rankIn (a ++ b))).sum =
      a.length * (a.length + 1) / 2 + pairsWith (· > ·) a b + pairsWith (· = ·) a b / 2 := by
    rw [funext (rankIn_append a b), List.sum_map_add, List.sum_map_add, sum_map_rankIn]
    simp only [div_eq_mul_inv, List.sum_map_mul_right, hpairs]
  rw [uStatistic_eq, hranks]
  ring

/-- The variance of the statistic is that without ties, as far as ties leave it. -/
theorem uVariance_eq_mul_tieFactor (ha : a ≠ []) (hb : b ≠ []) : uVariance a b =
    a.length * b.length * (a.length + b.length + 1) / 12 * tieFactor (a ++ b) := by
  have hn : 2 ≤ a.length + b.length :=
    Nat.add_le_add (List.length_pos_iff.2 ha) (List.length_pos_iff.2 hb)
  have hcube := cube_sub_self_pos hn
  have hfactor : ((a.length + b.length : ℕ) : ℝ) ^ 3 - (a.length + b.length : ℕ) =
      (a.length + b.length) * (a.length + b.length - 1) * (a.length + b.length + 1) := by
    push_cast
    ring
  rw [hfactor] at hcube
  have hadd := right_ne_zero_of_mul hcube.ne'
  have hsub := right_ne_zero_of_mul (left_ne_zero_of_mul hcube.ne')
  have hsum := left_ne_zero_of_mul (left_ne_zero_of_mul hcube.ne')
  rw [tieFactor, List.length_append, hfactor]
  simp only [uVariance, count_eq, numeral_one]
  field_simp

/-- **The variance vanishes exactly if all values are tied.** -/
theorem uVariance_pos_iff (ha : a ≠ []) (hb : b ≠ []) :
    0 < uVariance a b ↔ ∃ x ∈ a ++ b, ∃ y ∈ a ++ b, x ≠ y := by
  have ha' := cast_length_pos ha
  have hb' := cast_length_pos hb
  have hn : 2 ≤ (a ++ b).length := by
    rw [List.length_append]
    exact Nat.add_le_add (List.length_pos_iff.2 ha) (List.length_pos_iff.2 hb)
  rw [uVariance_eq_mul_tieFactor ha hb, mul_pos_iff_of_pos_left (by positivity),
    tieFactor_pos_iff hn]

theorem rankBiserial_eq (u : ℝ) (n m : ℕ) : rankBiserial u n m = 2 * u / (n * m) - 1 := by
  simp only [rankBiserial, ofNat_eq, numeral_one]

/-- **The effect size** is the difference between the shares of the pairs of either direction. -/
theorem rankBiserial_uStatistic (ha : a ≠ []) (hb : b ≠ []) :
    rankBiserial (uStatistic a b) a.length b.length =
      (pairsWith (· > ·) a b - pairsWith (· < ·) a b) / (a.length * b.length) := by
  have ha' := (cast_length_pos ha).ne'
  have hb' := (cast_length_pos hb).ne'
  have hsides : (pairsWith (· > ·) a b + pairsWith (· = ·) a b + pairsWith (· < ·) a b : ℝ) =
      a.length * b.length := by exact_mod_cast pairsWith_sides a b
  rw [rankBiserial_eq, uStatistic_eq_pairs, div_sub_one (mul_ne_zero ha' hb'), ← hsides]
  congr 1
  ring

/-- The effect size is a share of all pairs, in one direction or the other. -/
theorem rankBiserial_uStatistic_mem_Icc (ha : a ≠ []) (hb : b ≠ []) :
    rankBiserial (uStatistic a b) a.length b.length ∈ Set.Icc (-1) 1 := by
  have ha' := cast_length_pos ha
  have hb' := cast_length_pos hb
  have htotal : (pairsWith (· > ·) a b + pairsWith (· = ·) a b + pairsWith (· < ·) a b : ℝ) =
      a.length * b.length := by exact_mod_cast pairsWith_sides a b
  have hgreater : (0 : ℝ) ≤ pairsWith (· > ·) a b := Nat.cast_nonneg _
  have hequal : (0 : ℝ) ≤ pairsWith (· = ·) a b := Nat.cast_nonneg _
  have hless : (0 : ℝ) ≤ pairsWith (· < ·) a b := Nat.cast_nonneg _
  rw [rankBiserial_uStatistic ha hb, Set.mem_Icc, le_div_iff₀ (mul_pos ha' hb'),
    div_le_one (mul_pos ha' hb'), ← htotal]
  constructor <;> linarith

/-- The effect size is greatest exactly if the first sample lies above the second. -/
theorem rankBiserial_uStatistic_eq_one_iff (ha : a ≠ []) (hb : b ≠ []) :
    rankBiserial (uStatistic a b) a.length b.length = 1 ↔ ∀ x ∈ a, ∀ y ∈ b, y < x := by
  have ha' := (cast_length_pos ha).ne'
  have hb' := (cast_length_pos hb).ne'
  have hsides := pairsWith_sides a b
  -- the pairs of one direction exceed those of the other by all pairs only if they are all pairs
  have hall : (pairsWith (· > ·) a b - pairsWith (· < ·) a b : ℝ) = a.length * b.length ↔
      pairsWith (· > ·) a b = a.length * b.length := by
    rw [sub_eq_iff_eq_add]
    norm_cast
    omega
  rw [rankBiserial_uStatistic ha hb, div_eq_one_iff_eq (mul_ne_zero ha' hb'), hall,
    pairsWith_eq_length_iff]

/-- The statistic of the second sample. -/
theorem uStatistic_comm (a b : List ℝ) :
    uStatistic b a = a.length * b.length - uStatistic a b :=
  eq_sub_of_add_eq' (uStatistic_add a b)

/-- **The effect size changes its sign** when the samples are exchanged. -/
theorem rankBiserial_uStatistic_comm (ha : a ≠ []) (hb : b ≠ []) :
    rankBiserial (uStatistic b a) b.length a.length =
      -rankBiserial (uStatistic a b) a.length b.length := by
  have ha' := (cast_length_pos ha).ne'
  have hb' := (cast_length_pos hb).ne'
  rw [rankBiserial_eq, rankBiserial_eq, uStatistic_comm]
  field_simp
  ring

theorem rankBiserial_uStatistic_eq_neg_one_iff (ha : a ≠ []) (hb : b ≠ []) :
    rankBiserial (uStatistic a b) a.length b.length = -1 ↔ ∀ x ∈ a, ∀ y ∈ b, x < y := by
  rw [← neg_eq_iff_eq_neg, ← rankBiserial_uStatistic_comm ha hb,
    rankBiserial_uStatistic_eq_one_iff hb ha]
  exact ⟨fun h x hx y hy => h y hy x hx, fun h y hy x hx => h x hx y hy⟩

/-- The sum of the ranks of a sample among the values of both. -/
theorem sum_map_rankIn_append (a b : List ℝ) : (a.map (rankIn (a ++ b))).sum =
    uStatistic a b + a.length * (a.length + 1) / 2 := by
  rw [uStatistic_eq, sub_add_cancel]

/-- **The mean ranks of two groups** lie as far from the middle as the statistic lies from its mean,
each at the rate of its size. -/
theorem rankSpread_pair (ha : a ≠ []) (hb : b ≠ []) : rankSpread [a, b] =
    (uStatistic a b - a.length * b.length / 2) ^ 2 * (a.length + b.length) /
      (a.length * b.length) := by
  have ha' := (cast_length_pos ha).ne'
  have hb' := (cast_length_pos hb).ne'
  have hflatten : [a, b].flatten = a ++ b := by
    rw [List.flatten_cons, List.flatten_singleton]
  have hsplit : splitLike [a, b] ((a ++ b).map (rankIn (a ++ b))) =
      [a.map (rankIn (a ++ b)), b.map (rankIn (a ++ b))] := hflatten ▸ splitLike_map _ [a, b]
  have hsecond : (b.map (rankIn (a ++ b))).sum =
      a.length * b.length - uStatistic a b + b.length * (b.length + 1) / 2 := by
    rw [rankIn_eq_of_perm List.perm_append_comm, sum_map_rankIn_append, ← uStatistic_add a b]
    ring
  simp only [rankSpread, hflatten, ranks_eq, hsplit, foldl_add_eq, List.map_cons, List.map_nil,
    List.sum_cons, List.sum_nil, sum_eq, count_eq, List.length_map, ofNat_eq, List.length_append,
    sum_map_rankIn_append, hsecond, square_eq, numeral_zero, numeral_one, Nat.cast_add]
  field_simp
  ring

end Statistic

/-! ### The tests -/

section Tests

variable [Tails ℝ] {a b : List ℝ}

/-- The standardised rank statistic. -/
noncomputable def uScore (a b : List ℝ) : ℝ :=
  (uStatistic a b - a.length * b.length / 2) / Real.sqrt (uVariance a b)

/-- The rank-sum test of two samples that are large enough. -/
theorem mannWhitneyU_eq (ha : 2 ≤ a.length) (hb : 2 ≤ b.length) : mannWhitneyU a b =
    if uVariance a b ≤ 0 then .error (.degenerate .tiedObservations)
    else .ok (.clamped (uStatistic a b) (Tails.normalTwoSided (uScore a b)) none) := by
  rw [mannWhitneyU, (require_eq_ok_iff a 2).2 ha, (require_eq_ok_iff b 2).2 hb, ok_bind, ok_bind,
    numeral_zero]
  dsimp only
  split <;> rfl

/-- The rank analysis of variance of groups that are large enough. -/
theorem kruskalWallis_eq {groups : List (List ℝ)} (h : requireGroups groups = .ok ()) :
    kruskalWallis groups =
      if tieFactor groups.flatten ≤ 0 then .error (.degenerate .tiedObservations)
      else
        let n : ℝ := groups.flatten.length
        let h := rankSpread groups * (12 / (n * (n + 1))) / tieFactor groups.flatten
        let df : ℝ := (groups.length - 1 : ℕ)
        .ok (.clamped h (Tails.chiSquare h df) (some df)) := by
  have hcube (n : ℝ) : n * n * n - n = n ^ 3 - n := by ring
  rw [kruskalWallis, h, ok_bind, numeral_zero, numeral_one]
  dsimp only
  rw [count_eq, hcube, tieFactor]
  split <;> rfl

/-- For two groups, the statistic is a square. -/
theorem kruskalWallis_pair_eq (ha : 2 ≤ a.length) (hb : 2 ≤ b.length) : kruskalWallis [a, b] =
    if uVariance a b ≤ 0 then .error (.degenerate .tiedObservations)
    else
      let h := (uStatistic a b - a.length * b.length / 2) ^ 2 / uVariance a b
      .ok (.clamped h (Tails.chiSquare h 1) (some 1)) := by
  have hne : a ≠ [] := List.ne_nil_of_length_pos (by omega)
  have hne' : b ≠ [] := List.ne_nil_of_length_pos (by omega)
  have ha' := cast_length_pos hne
  have hb' := cast_length_pos hne'
  have hrequire : requireGroups [a, b] = .ok () :=
    requireGroups_eq_ok_iff.2 ⟨le_refl 2, by simp [ha, hb]⟩
  have hflatten : [a, b].flatten = a ++ b := by
    rw [List.flatten_cons, List.flatten_singleton]
  have hvariance := uVariance_eq_mul_tieFactor hne hne'
  have hnonpos : uVariance a b ≤ 0 ↔ tieFactor (a ++ b) ≤ 0 := by
    rw [← not_lt, ← not_lt, hvariance, mul_pos_iff_of_pos_left (by positivity)]
  have hstatistic (hties : tieFactor (a ++ b) ≠ 0) :
      rankSpread [a, b] * (12 / ((a ++ b).length * ((a ++ b).length + 1))) / tieFactor (a ++ b) =
        (uStatistic a b - a.length * b.length / 2) ^ 2 / uVariance a b := by
    rw [rankSpread_pair hne hne', hvariance, List.length_append, Nat.cast_add]
    field_simp
  have hdf : (([a, b].length - 1 : ℕ) : ℝ) = 1 := Nat.cast_one
  rw [kruskalWallis_eq hrequire, hflatten, hdf]
  by_cases hties : tieFactor (a ++ b) ≤ 0
  · rw [if_pos hties, if_pos (hnonpos.2 hties)]
  · rw [if_neg hties, if_neg (hnonpos.not.2 hties)]
    dsimp only
    rw [hstatistic (not_le.1 hties).ne']

/-- **The rank-sum test counts pairs.**  Its statistic is the number of pairs with a greater value in
the first sample plus half of those with equal values.  The effect size of the test is the number of
pairs with a greater value less that of pairs with a smaller one, as a share of all pairs. -/
theorem mannWhitneyU_counts_pairs (ha : 2 ≤ a.length) (hb : 2 ≤ b.length)
    (hvaries : ∃ x ∈ a ++ b, ∃ y ∈ a ++ b, x ≠ y) :
    ∃ out out', mannWhitneyU a b = .ok out ∧ mannWhitneyU b a = .ok out' ∧
      out.statistic = pairsWith (· > ·) a b + pairsWith (· = ·) a b / 2 ∧
      out'.statistic = a.length * b.length - out.statistic ∧ out'.pValue = out.pValue ∧
      let size := rankBiserial out.statistic a.length b.length
      size = (pairsWith (· > ·) a b - pairsWith (· < ·) a b) / (a.length * b.length) ∧
      size ∈ Set.Icc (-1) 1 ∧ rankBiserial out'.statistic b.length a.length = -size ∧
      (size = 1 ↔ ∀ x ∈ a, ∀ y ∈ b, y < x) ∧ (size = -1 ↔ ∀ x ∈ a, ∀ y ∈ b, x < y) := by
  have hne : a ≠ [] := List.ne_nil_of_length_pos (by omega)
  have hne' : b ≠ [] := List.ne_nil_of_length_pos (by omega)
  have hspread : ¬ uVariance a b ≤ 0 := not_le.2 ((uVariance_pos_iff hne hne').2 hvaries)
  have hout := mannWhitneyU_eq ha hb
  have hout' := mannWhitneyU_eq hb ha
  rw [if_neg hspread] at hout
  rw [uVariance_comm, if_neg hspread] at hout'
  have hanswer := answer_mannWhitneyU_comm a b
  rw [hout, hout', answer_ok, answer_ok] at hanswer
  exact ⟨_, _, hout, hout', uStatistic_eq_pairs a b, uStatistic_comm a b,
    (Prod.mk.inj (Option.some.inj hanswer)).1, rankBiserial_uStatistic hne hne',
    rankBiserial_uStatistic_mem_Icc hne hne', rankBiserial_uStatistic_comm hne hne',
    rankBiserial_uStatistic_eq_one_iff hne hne', rankBiserial_uStatistic_eq_neg_one_iff hne hne'⟩

omit [Tails ℝ] in
/-- Of six pairs, three have a greater value in the first sample and two have equal values. -/
theorem pairsWith_of_six_pairs :
    let a : List ℝ := [2, 3, 3]
    let b : List ℝ := [1, 3]
    pairsWith (· > ·) a b = 3 ∧ pairsWith (· = ·) a b = 2 ∧ pairsWith (· < ·) a b = 1 := by
  norm_num [pairsWith_eq_sum, List.countP_cons]

omit [Tails ℝ] in
theorem uStatistic_of_six_pairs : uStatistic ([2, 3, 3] : List ℝ) [1, 3] = 4 := by
  obtain ⟨hgreater, hequal, -⟩ := pairsWith_of_six_pairs
  rw [uStatistic_eq_pairs, hgreater, hequal]
  norm_num

omit [Tails ℝ] in
theorem uVariance_of_six_pairs : uVariance ([2, 3, 3] : List ℝ) [1, 3] = 12 / 5 := by
  have hties : tieCorrection ([2, 3, 3] ++ [1, 3] : List ℝ) = 24 := by
    norm_num [tieCorrection_eq_sum, tiesIn, List.countP_cons]
  rw [uVariance_eq_mul_tieFactor (List.cons_ne_nil _ _) (List.cons_ne_nil _ _), tieFactor, hties]
  norm_num

omit [Tails ℝ] in
/-- The effect size of these samples is a third, and the negative of it after they are exchanged. -/
theorem mannWhitneyU_counts_six_pairs :
    let _tails := densityTails
    let a : List ℝ := [2, 3, 3]
    let b : List ℝ := [1, 3]
    ∃ out out', mannWhitneyU a b = .ok out ∧ mannWhitneyU b a = .ok out' ∧
      out.statistic = 4 ∧ out'.statistic = 2 ∧ out'.pValue = out.pValue ∧
      rankBiserial out.statistic 3 2 = 1 / 3 ∧ rankBiserial out'.statistic 2 3 = -(1 / 3) := by
  intro _tails a b
  have ha : 2 ≤ a.length := Nat.le_succ 2
  have hb : 2 ≤ b.length := le_refl 2
  have hvaries : ∃ x ∈ a ++ b, ∃ y ∈ a ++ b, x ≠ y :=
    ⟨2, by simp [a], 3, by simp [a], by norm_num⟩
  obtain ⟨out, out', hout, hout', hu, hu', hp, hsize, -, hsize', -⟩ :=
    mannWhitneyU_counts_pairs ha hb hvaries
  obtain ⟨hgreater, hequal, hless⟩ := pairsWith_of_six_pairs
  have hstatistic : out.statistic = 4 := by
    rw [hu, hgreater, hequal]
    norm_num
  have hthird : rankBiserial out.statistic 3 2 = 1 / 3 := by
    refine hsize.trans ?_
    rw [hgreater, hless]
    norm_num [a, b]
  refine ⟨out, out', hout, hout', hstatistic, ?_, hp, hthird, hsize'.trans (congrArg _ hthird)⟩
  rw [hu', hstatistic]
  norm_num [a, b]

/-- **The rank analysis of variance of two groups is the square of the standardised rank sum**: one
cannot be computed exactly if the other cannot, since all observations are tied. -/
theorem kruskalWallis_pair_eq_square (ha : 2 ≤ a.length) (hb : 2 ≤ b.length) :
    ((∃ cause, kruskalWallis [a, b] = .error (.degenerate cause)) ↔
      ∃ cause, mannWhitneyU a b = .error (.degenerate cause)) ∧
    ((¬ ∃ cause, mannWhitneyU a b = .error (.degenerate cause)) →
      ∃ h u, kruskalWallis [a, b] = .ok h ∧ mannWhitneyU a b = .ok u ∧ 0 < uVariance a b ∧
        h.statistic = (u.statistic - a.length * b.length / 2) ^ 2 / uVariance a b) := by
  rw [mannWhitneyU_eq ha hb, kruskalWallis_pair_eq ha hb]
  by_cases hspread : uVariance a b ≤ 0
  · simp only [if_pos hspread]
    exact ⟨trivial, fun h => absurd ⟨_, rfl⟩ h⟩
  · simp only [if_neg hspread]
    refine ⟨by simp, fun _ => ⟨_, _, rfl, rfl, not_le.1 hspread, rfl⟩⟩

omit [Tails ℝ] in
/-- With one value that occurs three times, the variance is 12 / 5, and both tests can be computed. -/
theorem kruskalWallis_pair_of_three_tied :
    let _tails := densityTails
    let a : List ℝ := [2, 3, 3]
    let b : List ℝ := [1, 3]
    ∃ h u, kruskalWallis [a, b] = .ok h ∧ mannWhitneyU a b = .ok u ∧ uVariance a b = 12 / 5 ∧
      u.statistic = 4 ∧ h.statistic = 5 / 12 := by
  intro _tails a b
  have ha : 2 ≤ a.length := Nat.le_succ 2
  have hb : 2 ≤ b.length := le_refl 2
  have hok : mannWhitneyU a b = .ok (.clamped 4 (Tails.normalTwoSided (uScore a b)) none) := by
    rw [mannWhitneyU_eq ha hb, if_neg (by rw [uVariance_of_six_pairs]; norm_num),
      uStatistic_of_six_pairs]
  have hdefined : ¬ ∃ cause, mannWhitneyU a b = .error (.degenerate cause) := by
    rintro ⟨cause, herror⟩
    rw [hok] at herror
    cases herror
  obtain ⟨h, u, hh, hmw, -, hsquare⟩ :=
    (kruskalWallis_pair_eq_square ha hb).2 hdefined
  obtain rfl := Except.ok.inj (hmw.symm.trans hok)
  refine ⟨h, _, hh, hmw, uVariance_of_six_pairs, rfl, hsquare.trans ?_⟩
  rw [uVariance_of_six_pairs]
  norm_num [a, b, TestOutput.clamped]

end Tests

end StudyAnalysis.Exact
