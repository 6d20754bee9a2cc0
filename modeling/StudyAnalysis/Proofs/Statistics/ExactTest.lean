/-
**The exact test of a table of two rows and two columns.**

The margins of such a table leave one cell free.  The numbers that may stand in the first cell are
those that make no other cell negative, and given the margins the first cell is distributed
hypergeometrically: the number `x` has the probability `C(r, x) C(s, c - x) / C(n, c)`, where `r` and
`s` are the totals of the rows, `c` that of the first column and `n` that of the table.  These
probabilities add up to one, which is Vandermonde's identity.

The test adds up the probabilities of the tables that are no more likely than the observed one, up to
a factor that allows for rounding.  Exchanging the rows, the columns, or the rows with the columns
maps every table with the same margins to one of the same probability, so that the tables that are
added up correspond to each other.

All counts that the probabilities are computed from are at most the total, and fit into a word if it
does.  The odds ratio needs two products that can be larger.  Words keep their last digits, and the
test with checked products stops; nothing of that concerns the probabilities.

Main definitions:

* `StudyAnalysis.Fourfold.withFirst` — the table with the same margins and another first cell;
* `StudyAnalysis.Fourfold.swapRows`, `StudyAnalysis.Fourfold.swapCols`,
  `StudyAnalysis.Fourfold.transposed` — a table with its rows, its columns or both exchanged;
* `StudyAnalysis.Fourfold.productsFit` — whether the products of opposite cells fit into words;
* `StudyAnalysis.Exact.probability` — the probability of a first cell, given the margins;
* `StudyAnalysis.Exact.tailWithin` — the probability of all tables that are no more likely than the
  observed one, up to a factor.

Main results:

* `StudyAnalysis.Fourfold.mem_firstCells_iff_nonneg` — first cells leave no cell negative;
* `StudyAnalysis.Fourfold.sameMargins_iff` — **the first cells give exactly the tables with the same
  margins**;
* `StudyAnalysis.Exact.probability_eq` — the probabilities are hypergeometric;
* `StudyAnalysis.Exact.sum_probability` — **they add up to one**;
* `StudyAnalysis.Exact.tailProbability_eq_tailWithin` — what the test adds up;
* `StudyAnalysis.Exact.tailWithin_mem_Icc` — **it lies between the probability of the observed table
  and one**;
* `StudyAnalysis.Exact.tailWithin_swapRows`, `StudyAnalysis.Exact.tailWithin_swapCols`,
  `StudyAnalysis.Exact.tailWithin_transposed` — **it has the symmetries of a table**;
* `StudyAnalysis.fisherExactChecked?_eq` — **with checked products the test stops exactly where one
  of them does not fit**;
* `StudyAnalysis.Fourfold.productsFit_of_total_lt` — they fit for fewer than `2 ^ 33` observations;
* `StudyAnalysis.Exact.fisherExact_eq` — the test in closed form;
* `StudyAnalysis.Exact.answer_fisherExact_swapRows`,
  `StudyAnalysis.Exact.answer_fisherExact_swapCols`,
  `StudyAnalysis.Exact.answer_fisherExact_transposed` — its answer has the symmetries as well.
-/

import StudyAnalysis.Proofs.Statistics.TwoSamples
import StudyAnalysis.Statistics.Frequencies

set_option autoImplicit false
set_option relaxedAutoImplicit false

namespace StudyAnalysis

/-! ### Tables with the same margins -/

namespace Fourfold

/-- The table with its rows exchanged. -/
def swapRows (t : Fourfold) : Fourfold := ⟨t.c, t.d, t.a, t.b⟩

/-- The table with its columns exchanged. -/
def swapCols (t : Fourfold) : Fourfold := ⟨t.b, t.a, t.d, t.c⟩

/-- The table with its rows and columns exchanged for each other. -/
def transposed (t : Fourfold) : Fourfold := ⟨t.a, t.c, t.b, t.d⟩

/-- The table with the margins of this one and the first cell `x`. -/
def withFirst (t : Fourfold) (x : ℕ) : Fourfold :=
  ⟨x, t.row1 - x, t.col1 - x, t.row2 + x - t.col1⟩

/-- The rows and the columns of two tables have the same totals. -/
structure SameMargins (s t : Fourfold) : Prop where
  row1_eq : s.row1 = t.row1
  row2_eq : s.row2 = t.row2
  col1_eq : s.col1 = t.col1
  col2_eq : s.col2 = t.col2

section FirstCells

variable (t : Fourfold) {x : ℕ}

/-- What the cells beside a first cell are taken from is large enough. -/
theorem mem_firstCells_iff_le :
    x ∈ t.firstCells ↔ x ≤ t.row1 ∧ x ≤ t.col1 ∧ t.col1 ≤ t.row2 + x := by
  rw [mem_firstCells, least, greatest]
  omega

/-- **First cells are those that leave no cell negative.** -/
theorem mem_firstCells_iff_nonneg :
    x ∈ t.firstCells ↔
      0 ≤ (t.row1 - x : ℤ) ∧ 0 ≤ (t.col1 - x : ℤ) ∧ 0 ≤ (t.row2 + x - t.col1 : ℤ) := by
  rw [mem_firstCells_iff_le]
  omega

theorem nodup_firstCells : t.firstCells.Nodup :=
  List.nodup_range' 1

theorem row1_add_row2 : t.row1 + t.row2 = t.total := by
  simp only [row1, row2, total]
  omega

theorem col1_le_total : t.col1 ≤ t.total := by
  simp only [col1, total]
  omega

theorem a_mem_firstCells : t.a ∈ t.firstCells := by
  rw [mem_firstCells_iff_le]
  simp only [row1, row2, col1]
  omega

variable {t}

theorem sameMargins_withFirst (hx : x ∈ t.firstCells) : (t.withFirst x).SameMargins t := by
  obtain ⟨hrow1, hcol1, hrow2⟩ := t.mem_firstCells_iff_le.1 hx
  have htotal : t.row1 + t.row2 = t.col1 + t.col2 := by
    simp only [row1, row2, col1, col2]
    omega
  constructor
  · exact Nat.add_sub_cancel' hrow1
  · change t.col1 - x + (t.row2 + x - t.col1) = t.row2
    omega
  · exact Nat.add_sub_cancel' hcol1
  · change t.row1 - x + (t.row2 + x - t.col1) = t.col2
    omega

/-- **The first cells give exactly the tables with the same margins.** -/
theorem sameMargins_iff {s : Fourfold} :
    s.SameMargins t ↔ ∃ x ∈ t.firstCells, s = t.withFirst x := by
  constructor
  · rintro ⟨hrow1, hrow2, hcol1, -⟩
    refine ⟨s.a, ?_, ?_⟩
    · rw [mem_firstCells_iff_le, ← hrow1, ← hrow2, ← hcol1, ← mem_firstCells_iff_le]
      exact s.a_mem_firstCells
    · rw [withFirst, ← hrow1, ← hrow2, ← hcol1]
      obtain ⟨a, b, c, d⟩ := s
      simp only [row1, row2, col1, mk.injEq, true_and]
      omega
  · rintro ⟨x, hx, rfl⟩
    exact sameMargins_withFirst hx

end FirstCells

/-! ### Products of opposite cells -/

section Products

variable (t : Fourfold)

/-- Whether the products of opposite cells fit into words. -/
def productsFit : Bool :=
  Word.fits (t.b * t.c) && Word.fits (t.a * t.d)

theorem productsFit_swapRows : t.swapRows.productsFit = t.productsFit := by
  rw [productsFit, productsFit, Bool.and_comm, t.b.mul_comm, t.a.mul_comm]
  rfl

theorem productsFit_swapCols : t.swapCols.productsFit = t.productsFit :=
  Bool.and_comm _ _

theorem productsFit_transposed : t.transposed.productsFit = t.productsFit := by
  rw [productsFit, productsFit, t.b.mul_comm]
  rfl

variable {t}

/-- **Few observations have products that fit.** -/
theorem productsFit_of_total_lt (h : t.total < 2 ^ 33) : t.productsFit = true := by
  have hproduct : ∀ {m n : ℕ}, m + n ≤ t.total → Word.fits (m * n) = true := by
    intro m n hle
    have hsquare : 4 * (m * n) < 2 ^ 66 :=
      calc 4 * (m * n) = 4 * m * n := (Nat.mul_assoc 4 m n).symm
        _ ≤ (m + n) ^ 2 := four_mul_le_sq_add m n
        _ < (2 ^ 33) ^ 2 := Nat.pow_lt_pow_left (hle.trans_lt h) two_ne_zero
        _ = 2 ^ 66 := (pow_mul 2 33 2).symm
    refine Word.fits_iff.2 ?_
    change m * n < 2 ^ 64
    omega
  rw [productsFit, Bool.and_eq_true]
  refine ⟨hproduct ?_, hproduct ?_⟩ <;> simp only [total] <;> omega

variable {α : Type} [Numeric α]

/-- Products that fit are kept as they are. -/
theorem oddsRatio_eq (h : t.productsFit = true) :
    (t.oddsRatio : α) = Numeric.ofNat (t.a * t.d) / Numeric.ofNat (t.b * t.c) := by
  obtain ⟨hcrossed, hstraight⟩ := Bool.and_eq_true_iff.1 h
  rw [oddsRatio_eq_wrap, Word.wrap_eq_self hcrossed, Word.wrap_eq_self hstraight]

theorem oddsRatioIn_checked? :
    (t.oddsRatioIn Word.checked? : Option α) = if t.productsFit then some t.oddsRatio else none := by
  rw [oddsRatioIn, Word.checked?_eq_ite, Word.checked?_eq_ite, oddsRatio_eq_wrap, productsFit]
  -- the first product that does not fit ends the computation
  cases Word.fits (t.b * t.c) with
  | false => rfl
  | true => cases Word.fits (t.a * t.d) <;> rfl

end Products

end Fourfold

/-- **With checked products the test answers as without if they fit, and stops otherwise.** -/
theorem fisherExactChecked?_eq {α : Type} [Numeric α] (t : Fourfold) :
    (fisherExactChecked? t : Option (Except SampleError (TestOutput α))) =
      if t.productsFit then some (fisherExact t) else none := by
  rw [fisherExactChecked?, fisherExactIn, Fourfold.oddsRatioIn_checked?, fisherExact_eq_ite]
  by_cases htotal : t.total = 0
  · rw [if_pos htotal, if_pos htotal, if_pos (Fourfold.productsFit_of_total_lt (by omega))]
    rfl
  · rw [if_neg htotal, if_neg htotal]
    split <;> rfl

example : fisherExactChecked? (α := ℝ) ⟨2 ^ 63, 0, 0, 2⟩ = none := rfl

namespace Exact

open Numeric

/-! ### Probabilities -/

section Probability

variable (t : Fourfold) {x : ℕ}

/-- The probability that a table with the margins of this one has the first cell `x`. -/
noncomputable def probability (x : ℕ) : ℝ :=
  Real.exp (t.logProbability x)

theorem probability_pos (x : ℕ) : 0 < probability t x :=
  Real.exp_pos _

theorem exp_logFactorial (n : ℕ) : Real.exp (logFactorial n) = n.factorial :=
  Real.exp_log (Nat.cast_pos.2 n.factorial_pos)

variable {t}

/-- **The probabilities are hypergeometric.** -/
theorem probability_eq (hx : x ∈ t.firstCells) : probability t x =
    (t.row1.choose x * t.row2.choose (t.col1 - x) : ℕ) / t.total.choose t.col1 := by
  obtain ⟨hrow1, hcol1, hrow2⟩ := t.mem_firstCells_iff_le.1 hx
  have hrest : t.row2 - (t.col1 - x) = t.row2 + x - t.col1 := by omega
  have hne : ∀ n : ℕ, (n.factorial : ℝ) ≠ 0 := fun n => Nat.cast_ne_zero.2 n.factorial_ne_zero
  rw [probability, Fourfold.logProbability]
  simp only [Real.exp_add, Real.exp_sub, exp_logFactorial]
  rw [Nat.cast_mul, Nat.cast_choose ℝ hrow1, Nat.cast_choose ℝ (by omega : t.col1 - x ≤ t.row2),
    Nat.cast_choose ℝ t.col1_le_total, hrest]
  field_simp [hne]

/-- The ways to fill the first column of a table with the given totals of the rows. -/
theorem sum_choose_mul_choose (t : Fourfold) :
    (t.firstCells.map fun x => t.row1.choose x * t.row2.choose (t.col1 - x)).sum =
      t.total.choose t.col1 := by
  have hsubset : t.firstCells.toFinset ⊆ Finset.range (t.col1 + 1) := by
    intro x hx
    rw [List.mem_toFinset, Fourfold.mem_firstCells_iff_le] at hx
    exact Finset.mem_range.2 (Nat.lt_succ_of_le hx.2.1)
  -- a first cell that is no first cell of a table takes too much of one of the rows
  have hvanish : ∀ x ∈ Finset.range (t.col1 + 1), x ∉ t.firstCells.toFinset →
      t.row1.choose x * t.row2.choose (t.col1 - x) = 0 := by
    intro x hx hnot
    rw [Finset.mem_range] at hx
    rw [List.mem_toFinset, Fourfold.mem_firstCells_iff_le] at hnot
    rcases Nat.lt_or_ge t.row1 x with hrow1 | hrow1
    · rw [Nat.choose_eq_zero_of_lt hrow1, Nat.zero_mul]
    · rw [Nat.choose_eq_zero_of_lt (by omega : t.row2 < t.col1 - x), Nat.mul_zero]
  rw [← List.sum_toFinset _ t.nodup_firstCells, Finset.sum_subset hsubset hvanish,
    ← t.row1_add_row2, Nat.add_choose_eq, Finset.Nat.sum_antidiagonal_eq_sum_range_succ_mk]

/-- **The probabilities of all tables with the same margins add up to one.** -/
theorem sum_probability (t : Fourfold) : (t.firstCells.map (probability t)).sum = 1 := by
  have hways : (t.total.choose t.col1 : ℝ) ≠ 0 :=
    Nat.cast_ne_zero.2 (Nat.choose_pos t.col1_le_total).ne'
  have hquotients : t.firstCells.map (probability t) = t.firstCells.map fun x =>
      ((t.row1.choose x * t.row2.choose (t.col1 - x) : ℕ) : ℝ) * (t.total.choose t.col1 : ℝ)⁻¹ :=
    List.map_congr_left fun x hx => by rw [probability_eq hx, div_eq_mul_inv]
  have hsum := congrArg (Nat.cast (R := ℝ)) (sum_choose_mul_choose t)
  rw [Nat.cast_list_sum, List.map_map] at hsum
  rw [hquotients, List.sum_map_mul_right]
  exact (congrArg (· * _) hsum).trans (mul_inv_cancel₀ hways)

end Probability

/-! ### The tail -/

section Tail

/-- The probability of all tables with the margins of this one that are no more likely than it, up
to a factor. -/
noncomputable def tailWithin (factor : ℝ) (t : Fourfold) : ℝ :=
  (t.firstCells.map fun x =>
    if probability t x ≤ factor * probability t t.a then probability t x else 0).sum

/-- **The test adds up the tables that are no more likely**, up to a factor that is the tolerance of
their logarithms. -/
theorem tailProbability_eq_tailWithin (t : Fourfold) :
    (t.tailProbability : ℝ) = tailWithin (Real.exp (1 / 10000000)) t := by
  have hstep : (fun (p : ℝ) (x : ℕ) => let log : ℝ := t.logProbability x
      if log ≤ t.logProbability t.a + 1 / 10000000 then p + Numeric.exp log else p) =
      fun p x => p + if probability t x ≤ Real.exp (1 / 10000000) * probability t t.a
        then probability t x else 0 := by
    funext p x
    have hlikely : (t.logProbability x : ℝ) ≤ t.logProbability t.a + 1 / 10000000 ↔
        probability t x ≤ Real.exp (1 / 10000000) * probability t t.a := by
      rw [probability, probability, ← Real.exp_add, Real.exp_le_exp, add_comm]
    dsimp only
    by_cases h : (t.logProbability x : ℝ) ≤ t.logProbability t.a + 1 / 10000000
    · rw [if_pos h, if_pos (hlikely.1 h)]
      rfl
    · rw [if_neg h, if_neg (mt hlikely.2 h), add_zero]
  rw [Fourfold.tailProbability]
  dsimp only
  rw [numeral_one, hstep, foldl_add_eq, numeral_zero, zero_add, tailWithin]

variable {factor : ℝ}

/-- **The tail lies between the probability of the observed table and one.** -/
theorem tailWithin_mem_Icc (h : 1 ≤ factor) (t : Fourfold) :
    tailWithin factor t ∈ Set.Icc (probability t t.a) 1 := by
  have hterm : ∀ x : ℕ, 0 ≤ (if probability t x ≤ factor * probability t t.a
      then probability t x else 0) ∧ (if probability t x ≤ factor * probability t t.a
      then probability t x else 0) ≤ probability t x := by
    intro x
    have hpos := (probability_pos t x).le
    split
    · exact ⟨hpos, le_refl _⟩
    · exact ⟨le_refl _, hpos⟩
  constructor
  · have hobserved : probability t t.a ≤ factor * probability t t.a :=
      le_mul_of_one_le_left (probability_pos t t.a).le h
    refine List.single_le_sum (fun p hp => ?_) _
      (List.mem_map.2 ⟨t.a, t.a_mem_firstCells, if_pos hobserved⟩)
    obtain ⟨x, -, rfl⟩ := List.mem_map.1 hp
    exact (hterm x).1
  · rw [← sum_probability t]
    exact List.sum_le_sum fun x _ => (hterm x).2

/-- Two tables have equal tails if the tables with their margins correspond to each other in a way
that keeps all probabilities. -/
theorem tailWithin_eq_of_perm {t t' : Fourfold} (image : ℕ → ℕ)
    (hcells : t'.firstCells.Perm (t.firstCells.map image))
    (hlog : ∀ x ∈ t.firstCells, (t'.logProbability (image x) : ℝ) = t.logProbability x)
    (ha : t'.a = image t.a) : tailWithin factor t' = tailWithin factor t := by
  have hprobability : ∀ x ∈ t.firstCells, probability t' (image x) = probability t x :=
    fun x hx => congrArg Real.exp (hlog x hx)
  rw [tailWithin, (hcells.map _).sum_eq, List.map_map, ha, hprobability _ t.a_mem_firstCells,
    tailWithin]
  refine congrArg List.sum (List.map_congr_left fun x hx => ?_)
  rw [Function.comp_apply, hprobability x hx]

/-- They do so if first cells correspond by a reflection. -/
theorem tailWithin_eq_of_reflection {t t' : Fourfold} {m : ℕ}
    (hle : ∀ x ∈ t.firstCells, x ≤ m)
    (hcells : ∀ x, x ∈ t'.firstCells ↔ x ≤ m ∧ m - x ∈ t.firstCells)
    (hlog : ∀ x ∈ t.firstCells, (t'.logProbability (m - x) : ℝ) = t.logProbability x)
    (ha : t'.a = m - t.a) : tailWithin factor t' = tailWithin factor t := by
  have hmap : (t.firstCells.map (m - ·)).Nodup := by
    refine List.Nodup.map_on (fun x hx y hy heq => ?_) t.nodup_firstCells
    have hx' := hle x hx
    have hy' := hle y hy
    omega
  refine tailWithin_eq_of_perm (m - ·) ?_ hlog ha
  refine (List.perm_ext_iff_of_nodup t'.nodup_firstCells hmap).2 fun x => ?_
  rw [hcells, List.mem_map]
  constructor
  · rintro ⟨hxm, hx⟩
    exact ⟨m - x, hx, by omega⟩
  · rintro ⟨y, hy, rfl⟩
    have hym := hle y hy
    exact ⟨by omega, by rwa [show m - (m - y) = y by omega]⟩

end Tail

/-! ### Symmetries -/

section Symmetries

variable (t : Fourfold) {x : ℕ}

theorem total_swapRows : t.swapRows.total = t.total := by
  simp only [Fourfold.total, Fourfold.swapRows]
  omega

theorem total_swapCols : t.swapCols.total = t.total := by
  simp only [Fourfold.total, Fourfold.swapCols]
  omega

theorem total_transposed : t.transposed.total = t.total := by
  simp only [Fourfold.total, Fourfold.transposed]
  omega

/-- With its rows exchanged, a table of the same margins is as likely as before. -/
theorem logProbability_swapRows (hx : x ∈ t.firstCells) :
    (t.swapRows.logProbability (t.col1 - x) : ℝ) = t.logProbability x := by
  obtain ⟨hrow1, hcol1, hrow2⟩ := t.mem_firstCells_iff_le.1 hx
  have hcol : t.swapRows.col1 = t.col1 := Nat.add_comm _ _
  have hrest1 : t.swapRows.row1 - (t.col1 - x) = t.row2 + x - t.col1 := by
    rw [show t.swapRows.row1 = t.row2 from rfl]
    omega
  have hrest2 : t.swapRows.row2 + (t.col1 - x) - t.col1 = t.row1 - x := by
    rw [show t.swapRows.row2 = t.row1 from rfl]
    omega
  rw [Fourfold.logProbability, Fourfold.logProbability, hcol, total_swapRows, hrest1, hrest2,
    show t.col1 - (t.col1 - x) = x by omega, show t.swapRows.row1 = t.row2 from rfl,
    show t.swapRows.row2 = t.row1 from rfl]
  ring

/-- So it is with its columns exchanged. -/
theorem logProbability_swapCols (hx : x ∈ t.firstCells) :
    (t.swapCols.logProbability (t.row1 - x) : ℝ) = t.logProbability x := by
  obtain ⟨hrow1, hcol1, hrow2⟩ := t.mem_firstCells_iff_le.1 hx
  have hmargin1 : t.swapCols.row1 = t.row1 := Nat.add_comm _ _
  have hmargin2 : t.swapCols.row2 = t.row2 := Nat.add_comm _ _
  have hcol : t.swapCols.col1 = t.total - t.col1 := by
    simp only [Fourfold.total, Fourfold.col1, Fourfold.swapCols]
    omega
  have hmargins := t.row1_add_row2
  have hbound := t.col1_le_total
  rw [Fourfold.logProbability, Fourfold.logProbability, hcol, total_swapCols, hmargin1, hmargin2,
    show t.total - (t.total - t.col1) = t.col1 by omega,
    show t.row1 - (t.row1 - x) = x by omega,
    show t.total - t.col1 - (t.row1 - x) = t.row2 + x - t.col1 by omega,
    show t.row2 + (t.row1 - x) - (t.total - t.col1) = t.col1 - x by omega]
  ring

theorem firstCells_transposed : t.transposed.firstCells = t.firstCells := by
  have hleast : t.transposed.least = t.least := by
    simp only [Fourfold.least, Fourfold.col1, Fourfold.row2, Fourfold.transposed]
    omega
  have hgreatest : t.transposed.greatest = t.greatest := Nat.min_comm _ _
  rw [Fourfold.firstCells, hleast, hgreatest, Fourfold.firstCells]

/-- And so it is with the first cell that it has if rows and columns are exchanged. -/
theorem logProbability_transposed (hx : x ∈ t.firstCells) :
    (t.transposed.logProbability x : ℝ) = t.logProbability x := by
  obtain ⟨hrow1, hcol1, hrow2⟩ := t.mem_firstCells_iff_le.1 hx
  have hmargins := t.row1_add_row2
  have hbound := t.col1_le_total
  have hrow : t.transposed.row2 = t.total - t.col1 := by
    simp only [Fourfold.total, Fourfold.row2, Fourfold.col1, Fourfold.transposed]
    omega
  rw [Fourfold.logProbability, Fourfold.logProbability, hrow, total_transposed,
    show t.transposed.row1 = t.col1 from rfl, show t.transposed.col1 = t.row1 from rfl,
    show t.total - t.row1 = t.row2 by omega,
    show t.total - t.col1 + x - t.row1 = t.row2 + x - t.col1 by omega]
  ring

variable (factor : ℝ)

/-- **Exchanging the rows keeps the tail.** -/
theorem tailWithin_swapRows : tailWithin factor t.swapRows = tailWithin factor t := by
  refine tailWithin_eq_of_reflection (m := t.col1) ?_ ?_ (fun x => logProbability_swapRows t) ?_
  · exact fun x hx => (t.mem_firstCells_iff_le.1 hx).2.1
  · intro x
    simp only [Fourfold.mem_firstCells_iff_le, Fourfold.row1, Fourfold.row2, Fourfold.col1,
      Fourfold.swapRows]
    omega
  · exact (Nat.add_sub_cancel_left t.a t.c).symm

/-- **Exchanging the columns keeps the tail.** -/
theorem tailWithin_swapCols : tailWithin factor t.swapCols = tailWithin factor t := by
  refine tailWithin_eq_of_reflection (m := t.row1) ?_ ?_ (fun x => logProbability_swapCols t) ?_
  · exact fun x hx => (t.mem_firstCells_iff_le.1 hx).1
  · intro x
    simp only [Fourfold.mem_firstCells_iff_le, Fourfold.row1, Fourfold.row2, Fourfold.col1,
      Fourfold.swapCols]
    omega
  · exact (Nat.add_sub_cancel_left t.a t.b).symm

/-- **Exchanging rows and columns for each other keeps the tail.** -/
theorem tailWithin_transposed : tailWithin factor t.transposed = tailWithin factor t := by
  refine tailWithin_eq_of_perm id ?_ (fun x => logProbability_transposed t) rfl
  rw [firstCells_transposed, List.map_id]

end Symmetries

/-! ### The test -/

section Test

variable {s t : Fourfold}

theorem tailProbability_mem_Icc (t : Fourfold) :
    (t.tailProbability : ℝ) ∈ Set.Icc (probability t t.a) 1 := by
  rw [tailProbability_eq_tailWithin]
  exact tailWithin_mem_Icc (Real.one_le_exp (by norm_num)) t

/-- **The exact test of any observations** answers the probability of the tail as it is. -/
theorem fisherExact_eq (h : 0 < t.total) :
    fisherExact t = .ok ⟨t.oddsRatio, (t.tailProbability : ℝ), none⟩ := by
  obtain ⟨hobserved, hone⟩ := tailProbability_mem_Icc t
  rw [fisherExact_eq_ite, if_neg h.ne', TestOutput.clamped, numeral_zero, numeral_one,
    clamp_eq_self ((probability_pos t t.a).le.trans hobserved) hone]

/-- Tables of as many observations with equal tails have one answer. -/
theorem answer_fisherExact_eq (htotal : s.total = t.total)
    (htail : ∀ factor, tailWithin factor s = tailWithin factor t) :
    answer (fisherExact s) = answer (fisherExact t) := by
  rw [fisherExact_eq_ite, fisherExact_eq_ite, htotal, tailProbability_eq_tailWithin, htail,
    ← tailProbability_eq_tailWithin]
  split <;> rfl

variable (t)

/-- **Exchanging the rows keeps the answer of the exact test.** -/
theorem answer_fisherExact_swapRows : answer (fisherExact t.swapRows) = answer (fisherExact t) :=
  answer_fisherExact_eq (total_swapRows t) (tailWithin_swapRows t)

/-- **Exchanging the columns keeps the answer of the exact test.** -/
theorem answer_fisherExact_swapCols : answer (fisherExact t.swapCols) = answer (fisherExact t) :=
  answer_fisherExact_eq (total_swapCols t) (tailWithin_swapCols t)

/-- **Exchanging rows and columns for each other keeps the answer of the exact test.** -/
theorem answer_fisherExact_transposed :
    answer (fisherExact t.transposed) = answer (fisherExact t) :=
  answer_fisherExact_eq (total_transposed t) (tailWithin_transposed t)

end Test

end Exact

end StudyAnalysis
