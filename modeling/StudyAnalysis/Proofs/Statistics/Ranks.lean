/-
**Ranks as counts.**

In exact arithmetic the rank of a value is one more than the number of smaller values, and half a
place more for each other value that is equal to it.  So it does not depend on the order of the
sample, and the ranks of a sample of `n` values add up to `n (n + 1) / 2`.  The correction for ties
is a sum of counts as well.

Main definitions:

* `StudyAnalysis.Exact.rankIn` — **the rank of a value in a sample, by counting**;
* `StudyAnalysis.Exact.tiesIn` — the number of values that are equal to a value;
* `StudyAnalysis.Exact.tieFactor` — what ties leave of the spread of the ranks.

Main results:

* `StudyAnalysis.Exact.ranks_eq` — **the computed ranks are the counted ones**;
* `StudyAnalysis.Exact.sum_map_rankIn` — the sum of all ranks;
* `StudyAnalysis.Exact.rankIn_lt_iff`, `StudyAnalysis.Exact.ranks_ranks`,
  `StudyAnalysis.Exact.ranks_map_neg` — **ranks have the order of the values**;
* `StudyAnalysis.Exact.tieCorrection_eq_of_perm` — ties do not depend on the order of a sample;
* `StudyAnalysis.Exact.sum_tiesIn_lt_iff` — when ties leave something of an increasing term;
* `StudyAnalysis.Exact.tieCorrection_eq_sum`, `StudyAnalysis.Exact.tieCorrection_eq_zero_iff`,
  `StudyAnalysis.Exact.tieFactor_pos_iff` — **the correction for ties, by counting**, when there is
  none, and when it leaves something.
-/

import Mathlib
import StudyAnalysis.Proofs.Number.Totals
import StudyAnalysis.Proofs.Statistics.TieRuns

set_option autoImplicit false
set_option relaxedAutoImplicit false

namespace StudyAnalysis.Exact

open Numeric

/-- The rank of a value: one more than the number of smaller values, and half a place more for each
other value that is equal to it. -/
noncomputable def rankIn (pool : List ℝ) (x : ℝ) : ℝ :=
  pool.countP (fun y => decide (y < x)) + (pool.countP (fun y => decide (y = x)) + 1) / 2

theorem rankIn_eq_of_perm {pool pool' : List ℝ} (h : pool.Perm pool') :
    rankIn pool = rankIn pool' := by
  funext x
  rw [rankIn, rankIn, h.countP_eq, h.countP_eq]

theorem rankIn_pos (pool : List ℝ) (x : ℝ) : 0 < rankIn pool x := by
  rw [rankIn]
  positivity

/-- The number of values of a sample that are equal to a value. -/
noncomputable def tiesIn (pool : List ℝ) (x : ℝ) : ℕ :=
  pool.countP fun y => decide (y = x)

theorem tiesIn_eq_of_perm {pool pool' : List ℝ} (h : pool.Perm pool') :
    tiesIn pool = tiesIn pool' := by
  funext x
  exact h.countP_eq _

/-- The rank of a value is the mean of its first and its last position. -/
theorem rankIn_eq_half (pool : List ℝ) (x : ℝ) : rankIn pool x = positionSum pool x / 2 := by
  rw [rankIn, positionSum]
  push_cast
  ring

section Runs

variable {p q : List ℝ} {x : ℝ}

/-- Smaller values are not tied. -/
theorem tiesIn_append_of_lt (hp : ∀ y ∈ p, y < x) : tiesIn (p ++ q) x = tiesIn q x := by
  rw [tiesIn, tiesIn, List.countP_append, countP_eq_of_lt hp, zero_add]

/-- Neither are greater ones. -/
theorem tiesIn_append_of_eq (hp : ∀ y ∈ p, y = x) (hq : ∀ y ∈ q, x < y) :
    tiesIn (p ++ q) x = p.length := by
  rw [tiesIn, List.countP_append, countP_eq_of_eq hp, countP_eq_of_gt hq, add_zero]

/-- Values that are smaller only count. -/
theorem rankIn_append_of_lt (hp : ∀ y ∈ p, y < x) : rankIn (p ++ q) x = p.length + rankIn q x := by
  rw [rankIn_eq_half, rankIn_eq_half, positionSum_append_of_lt hp]
  push_cast
  ring

/-- Values that are greater do not count. -/
theorem rankIn_append_of_eq (hp : ∀ y ∈ p, y = x) (hq : ∀ y ∈ q, x < y) :
    rankIn (p ++ q) x = (p.length + 1) / 2 := by
  rw [rankIn_eq_half, positionSum_append_of_eq hp hq, Nat.cast_add, Nat.cast_one]

end Runs

/-! ### Ranks of a sample -/

section Samples

variable (xs : List ℝ)

/-- Real numbers are in a linear order themselves. -/
theorem graded : Graded id xs :=
  ⟨fun _ _ _ _ => Iff.rfl, fun _ _ _ _ => beq_iff_eq, fun _ _ _ _ => totalLe_iff.1⟩

/-- **The computed ranks are the counted ones.** -/
theorem ranks_eq : ranks xs = xs.map (rankIn xs) := by
  rw [(graded xs).ranks_eq]
  refine List.map_congr_left fun x hx => ?_
  rw [rankIn_eq_half, rankAmong, ← (graded xs).positionSum_eq hx, List.map_id]
  rfl

@[simp] theorem length_ranks : (ranks xs).length = xs.length := by
  rw [ranks_eq, List.length_map]

/-- Every value is below another one, equal to it or above it. -/
theorem countP_sides (a : ℝ) : xs.countP (fun x => decide (x < a)) +
    xs.countP (fun x => decide (x = a)) + xs.countP (fun x => decide (a < x)) = xs.length := by
  induction xs with
  | nil => rfl
  | cons x xs ih =>
      simp only [List.countP_cons, List.length_cons, decide_eq_true_eq]
      rcases lt_trichotomy x a with hlt | heq | hgt
      · rw [if_pos hlt, if_neg hlt.ne, if_neg hlt.asymm]
        omega
      · rw [if_neg heq.not_lt, if_pos heq, if_neg heq.not_gt]
        omega
      · rw [if_neg hgt.asymm, if_neg hgt.ne', if_pos hgt]
        omega

/-- What one more value adds to the ranks of the others. -/
theorem sum_map_rankIn_cons (a : ℝ) (pool : List ℝ) :
    (xs.map (rankIn (a :: pool))).sum = (xs.map (rankIn pool)).sum +
      xs.countP (fun x => decide (a < x)) + xs.countP (fun x => decide (x = a)) / 2 := by
  induction xs with
  | nil => simp
  | cons x xs ih =>
      have hrank : rankIn (a :: pool) x =
          rankIn pool x + (if a < x then 1 else 0) + (if x = a then 1 else 0) / 2 := by
        simp only [rankIn, List.countP_cons, decide_eq_true_eq, eq_comm (a := a), Nat.cast_add,
          Nat.cast_ite, Nat.cast_one, Nat.cast_zero]
        ring
      simp only [List.map_cons, List.sum_cons, ih, hrank, List.countP_cons, decide_eq_true_eq,
        Nat.cast_add, Nat.cast_ite, Nat.cast_one, Nat.cast_zero]
      ring

/-- **The ranks of a sample add up** to the sum of its positions. -/
theorem sum_map_rankIn : (xs.map (rankIn xs)).sum = xs.length * (xs.length + 1) / 2 := by
  induction xs with
  | nil => simp
  | cons a xs ih =>
      have hsides : ((xs.countP (fun x => decide (x < a)) + xs.countP (fun x => decide (x = a)) +
          xs.countP (fun x => decide (a < x)) : ℕ) : ℝ) = xs.length :=
        congrArg Nat.cast (countP_sides xs a)
      push_cast at hsides
      have hself : rankIn (a :: xs) a = rankIn xs a + 1 / 2 := by
        simp only [rankIn, List.countP_cons, decide_eq_true_eq, lt_irrefl, if_false, if_true,
          Nat.cast_add, Nat.cast_one, Nat.cast_zero]
        ring
      rw [List.map_cons, List.sum_cons, sum_map_rankIn_cons, ih, hself, rankIn, List.length_cons,
        Nat.cast_add, Nat.cast_one]
      linarith

/-- What is equal to a value is not above it, and so below whatever is. -/
theorem countP_lt_add_countP_eq_le {a b : ℝ} (hlt : a < b) :
    xs.countP (fun x => decide (x < a)) + xs.countP (fun x => decide (x = a)) ≤
      xs.countP fun x => decide (x < b) := by
  induction xs with
  | nil => simp
  | cons x xs ih =>
      simp only [List.countP_cons, decide_eq_true_eq]
      rcases lt_trichotomy x a with h | rfl | h
      · rw [if_pos h, if_neg h.ne, if_pos (h.trans hlt)]
        omega
      · rw [if_neg (lt_irrefl x), if_pos rfl, if_pos hlt]
        omega
      · rw [if_neg h.asymm, if_neg h.ne']
        omega

variable {xs}

/-- **Greater values have greater ranks.** -/
theorem rankIn_lt_rankIn {a b : ℝ} (ha : a ∈ xs) (hlt : a < b) : rankIn xs a < rankIn xs b := by
  have hties : 0 < xs.countP fun x => decide (x = a) :=
    List.countP_pos_iff.2 ⟨a, ha, decide_eq_true rfl⟩
  have hties' : (0 : ℝ) < xs.countP fun x => decide (x = a) := Nat.cast_pos.2 hties
  have hless : ((xs.countP (fun x => decide (x < a)) + xs.countP fun x => decide (x = a) : ℕ) : ℝ) ≤
      xs.countP fun x => decide (x < b) := Nat.cast_le.2 (countP_lt_add_countP_eq_le xs hlt)
  have hties'' : (0 : ℝ) ≤ xs.countP fun x => decide (x = b) := Nat.cast_nonneg _
  rw [Nat.cast_add] at hless
  rw [rankIn, rankIn]
  linarith

theorem rankIn_lt_iff {a b : ℝ} (ha : a ∈ xs) (hb : b ∈ xs) :
    rankIn xs a < rankIn xs b ↔ a < b := by
  refine ⟨fun h => ?_, rankIn_lt_rankIn ha⟩
  rcases lt_trichotomy a b with hlt | rfl | hgt
  · exact hlt
  · exact absurd h (lt_irrefl _)
  · exact absurd h (rankIn_lt_rankIn hb hgt).asymm

/-- **Different values have different ranks.** -/
theorem rankIn_inj {a b : ℝ} (ha : a ∈ xs) (hb : b ∈ xs) : rankIn xs a = rankIn xs b ↔ a = b := by
  rw [le_antisymm_iff, le_antisymm_iff, ← not_lt, ← not_lt, ← not_lt, ← not_lt, rankIn_lt_iff ha hb,
    rankIn_lt_iff hb ha]

variable (xs)

/-- **The ranks of ranks are the ranks.** -/
theorem ranks_ranks : ranks (ranks xs) = ranks xs := by
  rw [ranks_eq (ranks xs), ranks_eq xs, List.map_map]
  refine List.map_congr_left fun x hx => ?_
  have hless : xs.countP (fun y => decide (rankIn xs y < rankIn xs x)) =
      xs.countP fun y => decide (y < x) :=
    List.countP_congr fun y hy => by
      rw [decide_eq_true_iff, decide_eq_true_iff, rankIn_lt_iff hy hx]
  have hequal : xs.countP (fun y => decide (rankIn xs y = rankIn xs x)) =
      xs.countP fun y => decide (y = x) :=
    List.countP_congr fun y hy => by
      rw [decide_eq_true_iff, decide_eq_true_iff, rankIn_inj hy hx]
  rw [Function.comp_apply, rankIn, List.countP_map, List.countP_map]
  simp only [Function.comp_def]
  rw [hless, hequal]
  rfl

/-- **Reflection counts the ranks from the other end.** -/
theorem ranks_map_neg :
    ranks (xs.map (-·)) = (ranks xs).map fun r => (xs.length : ℝ) + 1 - r := by
  rw [ranks_eq, ranks_eq, List.map_map, List.map_map]
  refine List.map_congr_left fun x _ => ?_
  have hsides : ((xs.countP (fun y => decide (y < x)) + xs.countP (fun y => decide (y = x)) +
      xs.countP (fun y => decide (x < y)) : ℕ) : ℝ) = xs.length :=
    congrArg Nat.cast (countP_sides xs x)
  push_cast at hsides
  rw [Function.comp_apply, Function.comp_apply, rankIn, rankIn, List.countP_map, List.countP_map]
  simp only [Function.comp_def, neg_lt_neg_iff, neg_inj]
  linarith

end Samples

/-! ### Ties -/

section Ties

variable {xs ys : List ℝ}

theorem tieSizes_eq_of_perm (h : xs.Perm ys) : tieSizes xs = tieSizes ys := by
  rw [tieSizes, tieSizes, sorted_eq_of_perm h]

/-- **Ties do not depend on the order of a sample.** -/
theorem tieCorrection_eq_of_perm (h : xs.Perm ys) : tieCorrection xs = tieCorrection ys := by
  rw [tieCorrection, tieCorrection, tieSizes_eq_of_perm h]

/-- A run of equal values before greater ones contributes to a sum over the ties by itself. -/
theorem sum_tiesIn_append (g : ℕ → ℝ) {run rest : List ℝ} {x : ℝ} (hrun : ∀ y ∈ run, y = x)
    (hrest : ∀ y ∈ rest, x < y) :
    ((run ++ rest).map fun y => g (tiesIn (run ++ rest) y)).sum =
      run.length * g run.length + (rest.map fun y => g (tiesIn rest y)).sum := by
  have hfirst : run.map (fun y => g (tiesIn (run ++ rest) y)) =
      List.replicate run.length (g run.length) := by
    rw [← List.map_const']
    refine List.map_congr_left fun y hy => ?_
    rw [hrun y hy, tiesIn_append_of_eq hrun hrest]
  have hothers : rest.map (fun y => g (tiesIn (run ++ rest) y)) =
      rest.map fun y => g (tiesIn rest y) :=
    List.map_congr_left fun y hy =>
      congrArg g (tiesIn_append_of_lt fun z hz => (hrun z hz).trans_lt (hrest y hy))
  rw [List.map_append, List.sum_append, hfirst, hothers, List.sum_replicate, nsmul_eq_mul]

/-- A sum over the groups of equal values is a sum over the values, each of which contributes as
many times as its group has members. -/
theorem sum_tieRuns (g : ℕ → ℝ) (h : xs.Pairwise (· ≤ ·)) :
    ((tieRuns id xs).map fun run => run.length * g run.length).sum =
      (xs.map fun x => g (tiesIn xs x)).sum := by
  induction xs, h using run_induction with
  | nil => simp
  | append x run rest _ _ hrun hrest hruns ih =>
      change tieRuns id (run ++ rest) = run :: tieRuns id rest at hruns
      rw [hruns, List.map_cons, List.sum_cons, ih, sum_tiesIn_append g hrun hrest]

theorem sum_tieSizes (g : ℕ → ℝ) (xs : List ℝ) :
    ((tieSizes xs).map fun size => size * g size).sum = (xs.map fun x => g (tiesIn xs x)).sum := by
  rw [tieSizes, List.map_map, ← tiesIn_eq_of_perm (sorted_perm xs),
    ← ((sorted_perm xs).map fun x => g (tiesIn (sorted xs) x)).sum_eq]
  exact sum_tieRuns g (pairwise_sorted xs)

/-- **The correction for ties by counting**: it adds up, over the values, how far the square of the
size of their group is above one. -/
theorem tieCorrection_eq_sum (xs : List ℝ) :
    tieCorrection xs = (xs.map fun x => (tiesIn xs x : ℝ) ^ 2 - 1).sum := by
  rw [tieCorrection, foldl_add_eq, ← sum_tieSizes fun size => (size : ℝ) ^ 2 - 1]
  simp only [numeral_zero, numeral_one, ofNat_eq, zero_add, sq]

theorem tiesIn_pos {x : ℝ} (hx : x ∈ xs) : 1 ≤ tiesIn xs x :=
  List.countP_pos_iff.2 ⟨x, hx, decide_eq_true rfl⟩

/-- No value contributes less than nothing to the correction for ties. -/
theorem sq_tiesIn_sub_one_nonneg {x : ℝ} (hx : x ∈ xs) : (0 : ℝ) ≤ (tiesIn xs x : ℝ) ^ 2 - 1 := by
  have hties : (1 : ℝ) ≤ tiesIn xs x := Nat.one_le_cast.2 (tiesIn_pos hx)
  exact sub_nonneg.2 (one_le_pow₀ hties)

theorem tieCorrection_nonneg (xs : List ℝ) : 0 ≤ tieCorrection xs := by
  rw [tieCorrection_eq_sum]
  exact List.sum_nonneg (List.forall_mem_map.2 fun x hx => sq_tiesIn_sub_one_nonneg hx)

/-- **There is nothing to correct exactly if no two values are tied.** -/
theorem tieCorrection_eq_zero_iff (xs : List ℝ) : tieCorrection xs = 0 ↔ xs.Nodup := by
  rw [tieCorrection_eq_sum, sum_map_eq_zero_iff fun x hx => sq_tiesIn_sub_one_nonneg hx,
    List.nodup_iff_count_eq_one]
  refine forall₂_congr fun x _ => ?_
  have hcount : tiesIn xs x = xs.count x := rfl
  rw [hcount, sub_eq_zero, pow_eq_one_iff_of_nonneg (Nat.cast_nonneg _) two_ne_zero,
    Nat.cast_eq_one]

/-- What a sum over the ties lacks to its greatest possible value. -/
theorem sub_sum_tiesIn (g : ℕ → ℝ) (xs : List ℝ) :
    xs.length * g xs.length - (xs.map fun x => g (tiesIn xs x)).sum =
      (xs.map fun x => g xs.length - g (tiesIn xs x)).sum := by
  rw [sub_eq_iff_eq_add, ← List.sum_map_add]
  simp only [sub_add_cancel, List.map_const', List.sum_replicate, nsmul_eq_mul]

/-- **A sum over the ties is less than it can be exactly if not all values are tied**, if larger
groups of equal values contribute more. -/
theorem sum_tiesIn_lt_iff {g : ℕ → ℝ} (hg : StrictMono g) :
    (xs.map fun x => g (tiesIn xs x)).sum < xs.length * g xs.length ↔
      ∃ x ∈ xs, ∃ y ∈ xs, x ≠ y := by
  have hle : ∀ x, tiesIn xs x ≤ xs.length := fun x => List.countP_le_length
  rw [← sub_pos, sub_sum_tiesIn,
    sum_map_pos_iff fun x _ => sub_nonneg.2 (hg.monotone (hle x))]
  refine exists_congr fun x => and_congr_right fun _ => ?_
  rw [sub_pos, hg.lt_iff_lt, tiesIn, List.countP_lt_length_iff]
  simp only [decide_eq_false_iff_not, eq_comm (a := x), ne_eq]

/-- **The correction is less than it can be exactly if not all values are tied.** -/
theorem tieCorrection_lt_iff : tieCorrection xs < xs.length * ((xs.length : ℝ) ^ 2 - 1) ↔
    ∃ x ∈ xs, ∃ y ∈ xs, x ≠ y := by
  have hmono : StrictMono fun t : ℕ => (t : ℝ) ^ 2 - 1 := fun t u h =>
    sub_lt_sub_right (pow_lt_pow_left₀ (Nat.cast_lt.2 h) (Nat.cast_nonneg t) two_ne_zero) 1
  rw [tieCorrection_eq_sum]
  exact sum_tiesIn_lt_iff hmono

/-- The share of the spread of untied ranks that is left by ties. -/
noncomputable def tieFactor (xs : List ℝ) : ℝ :=
  1 - tieCorrection xs / ((xs.length : ℝ) ^ 3 - xs.length)

theorem cube_sub_self_pos {n : ℕ} (h : 2 ≤ n) : (0 : ℝ) < (n : ℝ) ^ 3 - n := by
  have hn : (2 : ℝ) ≤ n := Nat.ofNat_le_cast.2 h
  have hcube : (n : ℝ) ^ 3 - n = n * (n - 1) * (n + 1) := by ring
  rw [hcube]
  exact mul_pos (mul_pos (by linarith) (by linarith)) (by linarith)

/-- **Ties leave no spread exactly if all values are tied.** -/
theorem tieFactor_pos_iff (h : 2 ≤ xs.length) :
    0 < tieFactor xs ↔ ∃ x ∈ xs, ∃ y ∈ xs, x ≠ y := by
  have htotal : xs.length * ((xs.length : ℝ) ^ 2 - 1) = (xs.length : ℝ) ^ 3 - xs.length := by ring
  rw [tieFactor, sub_pos, div_lt_one (cube_sub_self_pos h), ← tieCorrection_lt_iff, htotal]

end Ties

end StudyAnalysis.Exact
