/-
**Exact arithmetic.**

The statistics are written over any type of numbers.  Over the real numbers they are what textbooks
define: sums do not depend on the order of their terms, no number is undefined, and the two equal
values of floating point, the positive and the negative zero, are one.  This module makes the real
numbers such a type and reads each operation as that of the library.

The tails of the reference distributions are not part of it: what is proved in exact arithmetic holds
for any functions in their place.  Those of the distributions themselves are given by their densities.

Main definitions:

* `StudyAnalysis.Exact.numeric` — the real numbers as numbers of the statistics;
* `StudyAnalysis.Exact.densityTails` — the tails of the reference distributions.

Main results:

* `StudyAnalysis.Exact.sum_eq`, `StudyAnalysis.Exact.foldl_add_eq` — sums are sums of lists;
* `StudyAnalysis.Exact.sum_map_eq_zero_iff`, `StudyAnalysis.Exact.sum_map_pos_iff` — sums of terms
  that are not negative;
* `StudyAnalysis.Exact.sorted_eq_of_perm` — sorting forgets the order of a sample;
* `StudyAnalysis.Exact.sorted_map_of_monotone`, `StudyAnalysis.Exact.sorted_map_neg` — a monotone map
  commutes with sorting, and reflection reverses the sorted sample;
* `StudyAnalysis.Exact.normal_densityTails_lt_half` — the normal tail above a positive number.
-/

import Mathlib
import StudyAnalysis.Number.Numeric
import StudyAnalysis.Statistics.Tails

set_option autoImplicit false
set_option relaxedAutoImplicit false

namespace StudyAnalysis

open Numeric

namespace Exact

/-- The real numbers with their arithmetic, order and elementary functions.  All of them are
finite. -/
noncomputable instance numeric : Numeric ℝ where
  ofNat n := n
  ofInt n := n
  emptySum := 0
  beq x y := decide (x = y)
  decLt _ _ := inferInstance
  decLe _ _ := inferInstance
  totalLe x y := decide (x ≤ y)
  abs x := |x|
  signum x := if x < 0 then -1 else 1
  sqrt := Real.sqrt
  cbrt x := SignType.sign x * |x| ^ (1 / 3 : ℝ)
  pow x y := x ^ y
  log := Real.log
  exp := Real.exp
  logFactorial n := Real.log n.factorial
  floor x := ⌊x⌋
  ceil x := ⌈x⌉
  toNat x := ⌊x⌋₊
  isFinite _ := true

/-! ### Operations -/

/-- Equality of numbers is equality. -/
instance lawfulBEq : @LawfulBEq ℝ numeric.toBEq where
  eq_of_beq h := of_decide_eq_true h
  rfl := decide_eq_true rfl

@[simp] theorem numeral_zero : @OfNat.ofNat ℝ 0 (instNumeral 0) = 0 := Nat.cast_zero

@[simp] theorem numeral_one : @OfNat.ofNat ℝ 1 (instNumeral 1) = 1 := Nat.cast_one

@[simp] theorem ofNat_eq (n : ℕ) : (ofNat n : ℝ) = n := rfl

@[simp] theorem count_eq {β : Type} (xs : List β) : (count xs : ℝ) = xs.length := rfl

theorem cast_length_pos {β : Type} {xs : List β} (h : xs ≠ []) : (0 : ℝ) < xs.length :=
  Nat.cast_pos.2 (List.length_pos_iff.2 h)

@[simp] theorem abs_eq (x : ℝ) : Numeric.abs x = |x| := rfl

@[simp] theorem sqrt_eq (x : ℝ) : Numeric.sqrt x = Real.sqrt x := rfl

@[simp] theorem log_eq (x : ℝ) : Numeric.log x = Real.log x := rfl

@[simp] theorem toNat_natCast (n : ℕ) : toNat (n : ℝ) = n := Nat.floor_natCast n

theorem square_eq (x : ℝ) : square x = x * x := rfl

@[simp] theorem square_neg (x : ℝ) : square (-x) = square x := neg_mul_neg x x

theorem totalLe_iff {x y : ℝ} : totalLe x y = true ↔ x ≤ y := decide_eq_true_iff

/-! ### Sums -/

theorem foldl_add_eq {β : Type} (f : β → ℝ) (xs : List β) (start : ℝ) :
    xs.foldl (fun total x => total + f x) start = start + (xs.map f).sum := by
  induction xs generalizing start with
  | nil => simp
  | cons x xs ih =>
      rw [List.foldl_cons, ih, List.map_cons, List.sum_cons]
      ring

@[simp] theorem sum_eq (xs : List ℝ) : sum xs = xs.sum := by
  have h := foldl_add_eq id xs 0
  rw [List.map_id, zero_add] at h
  exact h

section Nonnegative

variable {β : Type} {f : β → ℝ} {bs : List β} (hf : ∀ b ∈ bs, 0 ≤ f b)

include hf

/-- Terms that are not negative add up to nothing only if each of them is nothing. -/
theorem sum_map_eq_zero_iff : (bs.map f).sum = 0 ↔ ∀ b ∈ bs, f b = 0 := by
  constructor
  · intro h b hb
    exact List.all_zero_of_le_zero_le_of_sum_eq_zero (List.forall_mem_map.2 hf) h
      (List.mem_map_of_mem hb)
  · intro h
    exact List.sum_eq_zero (List.forall_mem_map.2 h)

/-- They add up to something exactly if one of them is something. -/
theorem sum_map_pos_iff : 0 < (bs.map f).sum ↔ ∃ b ∈ bs, 0 < f b := by
  rw [(List.sum_nonneg (List.forall_mem_map.2 hf)).lt_iff_ne', ne_eq, sum_map_eq_zero_iff hf]
  push Not
  exact exists_congr fun b => and_congr_right fun hb => (hf b hb).lt_iff_ne'.symm

end Nonnegative

/-! ### Sorting -/

section Sorting

variable {xs ys : List ℝ}

theorem pairwise_sorted (xs : List ℝ) : (sorted xs).Pairwise (· ≤ ·) := by
  refine (List.pairwise_mergeSort ?_ ?_ xs).imp fun h => totalLe_iff.1 h
  · intro x y z hxy hyz
    exact totalLe_iff.2 ((totalLe_iff.1 hxy).trans (totalLe_iff.1 hyz))
  · intro x y
    rw [Bool.or_eq_true, totalLe_iff, totalLe_iff]
    exact le_total x y

/-- A sorted sample is the only one with its values in ascending order. -/
theorem eq_sorted (hperm : ys.Perm xs) (hys : ys.Pairwise (· ≤ ·)) : ys = sorted xs :=
  (hperm.trans (sorted_perm xs).symm).eq_of_pairwise (fun _ _ _ _ => le_antisymm) hys
    (pairwise_sorted xs)

/-- **Sorting forgets the order of a sample.** -/
theorem sorted_eq_of_perm (h : xs.Perm ys) : sorted xs = sorted ys :=
  eq_sorted ((sorted_perm xs).trans h) (pairwise_sorted xs)

/-- **A map that keeps the order can be applied before sorting or after it.** -/
theorem sorted_map_of_monotone {f : ℝ → ℝ} (hf : Monotone f) (xs : List ℝ) :
    sorted (xs.map f) = (sorted xs).map f := by
  refine (eq_sorted ((sorted_perm xs).map f) ?_).symm
  rw [List.pairwise_map]
  exact (pairwise_sorted xs).imp fun h => hf h

/-- **Reflection reverses the sorted sample.** -/
theorem sorted_map_neg (xs : List ℝ) :
    sorted (xs.map (-·)) = ((sorted xs).map (-·)).reverse := by
  refine (eq_sorted ?_ ?_).symm
  · exact (List.reverse_perm _).trans ((sorted_perm xs).map _)
  · rw [List.pairwise_reverse, List.pairwise_map]
    exact (pairwise_sorted xs).imp fun h => neg_le_neg h

end Sorting

/-! ### Reference distributions -/

/-- The share of a distribution that lies above a number, from a density that need not add up to
one. -/
noncomputable def shareAbove (density : ℝ → ℝ) (x : ℝ) : ℝ :=
  (∫ y in Set.Ioi x, density y) / ∫ y, density y

/-- The tails of the reference distributions, from their densities. -/
@[reducible] noncomputable def densityTails : Tails ℝ where
  normal := shareAbove fun y => Real.exp (-y ^ 2 / 2)
  student t df := shareAbove (fun y => (1 + y ^ 2 / df) ^ (-(df + 1) / 2)) t
  chiSquare x df :=
    shareAbove (fun y => if 0 < y then y ^ (df / 2 - 1) * Real.exp (-y / 2) else 0) x
  fRatio x df1 df2 :=
    shareAbove (fun y => if 0 < y then
      y ^ (df1 / 2 - 1) * (1 + df1 * y / df2) ^ (-(df1 + df2) / 2) else 0) x

/-- **Less than half of the normal distribution lies above a positive number.** -/
theorem normal_densityTails_lt_half (z : ℝ) (hz : 0 < z) : densityTails.normal z < 1 / 2 := by
  have hdensity (y : ℝ) : Real.exp (-y ^ 2 / 2) = Real.exp (-(1 / 2) * y ^ 2) := by
    ring_nf
  have hintegrable := integrable_exp_neg_mul_sq (b := 1 / 2) one_half_pos
  have hhalf := integral_gaussian_Ioi (1 / 2)
  have hsplit := intervalIntegral.integral_interval_add_Ioi (a := 0) (b := z)
    hintegrable.integrableOn hintegrable.integrableOn
  have hbetween : 0 < ∫ y in (0 : ℝ)..z, Real.exp (-(1 / 2) * y ^ 2) :=
    intervalIntegral.intervalIntegral_pos_of_pos hintegrable.intervalIntegrable
      (fun y => Real.exp_pos _) hz
  have hpos : 0 < Real.sqrt (Real.pi / (1 / 2)) := Real.sqrt_pos.2 (by positivity)
  change shareAbove _ z < _
  simp only [shareAbove, hdensity]
  rw [integral_gaussian, div_lt_iff₀ hpos]
  linarith

/-- If less than half of the normal distribution lies above positive numbers, no number but zero has
a two-sided p-value of one. -/
theorem normalTwoSided_lt_one [Tails ℝ] (htails : ∀ z : ℝ, 0 < z → Tails.normal z < 1 / 2) {z : ℝ}
    (hz : z ≠ 0) : Tails.normalTwoSided z < 1 := by
  have hhalf := htails |z| (abs_pos.2 hz)
  rw [Tails.normalTwoSided, abs_eq]
  change 2 * _ < _
  linarith

end Exact

end StudyAnalysis
