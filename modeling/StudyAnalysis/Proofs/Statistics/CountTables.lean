/-
**Tables of counts.**

Observations are counted by two labels.  Where no row and no column of such a table is empty, every
cell is expected to have a positive number of observations, and the chi-square test can only fail
for want of rows or columns.  This needs no more of the numbers than that they add up the counts of
the table, so it holds in exact arithmetic, and of doubles as far as a mantissa holds the total.

Main definitions:

* `StudyAnalysis.rowTotal`, `StudyAnalysis.columnTotal`, `StudyAnalysis.tableTotal` — the totals of a
  table;
* `StudyAnalysis.NoEmptyMargin` — every row and every column has observations;
* `StudyAnalysis.countTable` — the numbers of a table of counts.

Main results:

* `StudyAnalysis.isLeast_of_least?` — what is computed as the least number is the least one;
* `StudyAnalysis.expectedCounts_countTable` — the expected counts, from the totals;
* `StudyAnalysis.expectedCounts_pos` — **all of them are positive**;
* `StudyAnalysis.chiSquareIndependence_countTable` — **the chi-square test of a table of counts**.
-/

import Mathlib
import StudyAnalysis.Proofs.Number.Totals
import StudyAnalysis.Proofs.Statistics.Tables

set_option autoImplicit false
set_option relaxedAutoImplicit false

namespace StudyAnalysis

open Numeric Fallible

/-! ### The least number -/

section Least

variable {α : Type} [Numeric α] {xs : List α} {x : α}

theorem least?_eq_none_iff : least? xs = none ↔ xs = [] := by
  cases xs with
  | nil => exact iff_of_true rfl rfl
  | cons y ys => exact iff_of_false (Option.some_ne_none _) (List.cons_ne_nil y ys)

/-- The first one of two numbers that is at most the other one. -/
def smaller (x y : α) : α :=
  if totalLe x y then x else y

variable [TotallyOrdered α]

theorem totalLe_self (x : α) : totalLe x x = true :=
  (TotallyOrdered.totalLe_total x x).elim id id

theorem totalLe_smaller_left (x y : α) : totalLe (smaller x y) x = true := by
  rw [smaller]
  split
  · exact totalLe_self x
  · exact (TotallyOrdered.totalLe_total x y).resolve_left ‹_›

theorem totalLe_smaller_right (x y : α) : totalLe (smaller x y) y = true := by
  rw [smaller]
  split
  · assumption
  · exact totalLe_self y

/-- Taking the smaller number again and again leaves the least one. -/
theorem isLeast_foldl_smaller (xs : List α) (x : α) :
    xs.foldl smaller x ∈ x :: xs ∧ ∀ y ∈ x :: xs, totalLe (xs.foldl smaller x) y = true := by
  induction xs generalizing x with
  | nil => exact ⟨List.mem_singleton_self x, fun y hy => List.mem_singleton.1 hy ▸ totalLe_self x⟩
  | cons y ys ih =>
      obtain ⟨hmem, hleast⟩ := ih (smaller x y)
      obtain ⟨hsmaller, hrest⟩ := List.forall_mem_cons.1 hleast
      have hx := TotallyOrdered.totalLe_trans hsmaller (totalLe_smaller_left x y)
      have hy := TotallyOrdered.totalLe_trans hsmaller (totalLe_smaller_right x y)
      rw [List.foldl_cons]
      refine ⟨?_, List.forall_mem_cons.2 ⟨hx, List.forall_mem_cons.2 ⟨hy, hrest⟩⟩⟩
      rcases List.mem_cons.1 hmem with hfirst | hlater
      · rw [hfirst]
        rcases ite_eq_or_eq (totalLe x y = true) x y with heq | heq
        · exact List.mem_cons.2 (.inl heq)
        · exact List.mem_cons_of_mem x (List.mem_cons.2 (.inl heq))
      · exact List.mem_cons_of_mem x (List.mem_cons_of_mem y hlater)

/-- **What is computed as the least number is the least one.** -/
theorem isLeast_of_least? (h : least? xs = some x) :
    x ∈ xs ∧ ∀ y ∈ xs, totalLe x y = true := by
  cases xs with
  | nil => cases h
  | cons y ys =>
      obtain rfl := Option.some.inj h
      exact isLeast_foldl_smaller ys y

end Least

/-! ### Margins -/

section Margins

variable {ι κ : Type} (f : ι → κ → ℕ) (rows : List ι) (cols : List κ)

/-- The total of a row of counts. -/
def rowTotal (row : ι) : ℕ :=
  (cols.map (f row)).sum

/-- The total of a column of counts. -/
def columnTotal (col : κ) : ℕ :=
  (rows.map fun row => f row col).sum

/-- Every row and every column of a table has observations. -/
structure NoEmptyMargin : Prop where
  rowTotal_pos : ∀ row ∈ rows, 0 < rowTotal f cols row
  columnTotal_pos : ∀ col ∈ cols, 0 < columnTotal f rows col

/-- The total of a table of counts. -/
def tableTotal : ℕ :=
  (rows.map (rowTotal f cols)).sum

variable {f rows cols}

theorem rowTotal_le_tableTotal {row : ι} (hrow : row ∈ rows) :
    rowTotal f cols row ≤ tableTotal f rows cols :=
  List.le_sum_of_mem (List.mem_map_of_mem hrow)

theorem columnTotal_le_tableTotal {col : κ} (hcol : col ∈ cols) :
    columnTotal f rows col ≤ tableTotal f rows cols :=
  List.sum_le_sum fun _ _ => List.le_sum_of_mem (List.mem_map_of_mem hcol)

theorem sum_flatten_tabulate :
    (Exact.tabulate f rows cols).flatten.sum = tableTotal f rows cols := by
  rw [List.sum_flatten, Exact.tabulate, List.map_map]
  rfl

theorem NoEmptyMargin.cols_ne_nil (h : NoEmptyMargin f rows cols) (hne : rows ≠ []) :
    cols ≠ [] := by
  rintro rfl
  obtain ⟨row, hrow⟩ := List.exists_mem_of_ne_nil rows hne
  exact absurd (h.rowTotal_pos row hrow) (lt_irrefl 0)

theorem NoEmptyMargin.tableTotal_pos (h : NoEmptyMargin f rows cols) (hne : rows ≠ []) :
    0 < tableTotal f rows cols := by
  obtain ⟨row, hrow⟩ := List.exists_mem_of_ne_nil rows hne
  exact (h.rowTotal_pos row hrow).trans_le (rowTotal_le_tableTotal hrow)

end Margins

/-! ### Expected counts -/

section Counts

variable {ι κ : Type} {α : Type} [Numeric α] {f : ι → κ → ℕ} {rows : List ι} {cols : List κ}

/-- The numbers of a table of counts. -/
def countTable (α : Type) [Numeric α] (f : ι → κ → ℕ) (rows : List ι) (cols : List κ) :
    List (List α) :=
  Exact.tabulate (fun row col => ofNat (f row col)) rows cols

theorem countTable_eq_map : countTable α f rows cols =
    (Exact.tabulate f rows cols).map (List.map ofNat) := by
  rw [countTable, Exact.tabulate, Exact.tabulate, List.map_map]
  refine List.map_congr_left fun row _ => ?_
  rw [Function.comp_apply, List.map_map]
  rfl

omit [Numeric α] in
theorem tabulate_congr {g g' : ι → κ → α} (h : ∀ row ∈ rows, ∀ col ∈ cols, g row col = g' row col) :
    Exact.tabulate g rows cols = Exact.tabulate g' rows cols :=
  List.map_congr_left fun row hrow => List.map_congr_left (h row hrow)

/-- There are expected counts unless there are no rows or no columns. -/
theorem expectedCounts_flatten_eq_nil_iff :
    (expectedCounts (countTable α f rows cols)).flatten = [] ↔ rows = [] ∨ cols = [] := by
  rw [countTable, Exact.expectedCounts_tabulate_sum, Exact.tabulate, List.flatten_eq_nil_iff,
    List.forall_mem_map]
  simp only [List.map_eq_nil_iff]
  constructor
  · intro h
    rcases rows.eq_nil_or_concat with hrows | ⟨_, row, rfl⟩
    · exact .inl hrows
    · exact .inr (h row (by simp))
  · rintro (rfl | rfl) row hrow
    · cases hrow
    · rfl

variable {bound : ℕ} (h : AddsCounts α bound) (hmargins : NoEmptyMargin f rows cols)
  (hbound : tableTotal f rows cols ≤ bound)

include h hmargins hbound

/-- **The expected counts, from the totals.** -/
theorem expectedCounts_countTable :
    expectedCounts (countTable α f rows cols) =
      Exact.tabulate (fun row col => ofNat (rowTotal f cols row) * ofNat (columnTotal f rows col) /
        ofNat (tableTotal f rows cols)) rows cols := by
  by_cases hne : rows = []
  · subst hne
    exact Exact.expectedCounts_tabulate_sum _ [] cols
  have hcols := hmargins.cols_ne_nil hne
  have hsum {counts : List ℕ} (hcounts : counts ≠ []) (hle : counts.sum ≤ bound) :
      (sum (counts.map ofNat) : α) = ofNat counts.sum := h.sum_map_ofNat hcounts hle
  have htotal : (sum (countTable α f rows cols).flatten : α) = ofNat (tableTotal f rows cols) := by
    have hflatten : (Exact.tabulate f rows cols).flatten ≠ [] := by
      intro hnil
      have hpos := hmargins.tableTotal_pos hne
      rw [← sum_flatten_tabulate, hnil] at hpos
      exact absurd hpos (lt_irrefl 0)
    rw [countTable_eq_map, ← List.map_flatten, hsum hflatten (by rwa [sum_flatten_tabulate]),
      sum_flatten_tabulate]
  have hpos : ¬ (ofNat (tableTotal f rows cols) : α) ≤ 0 :=
    h.not_nonpos (h.ofNat_pos (hmargins.tableTotal_pos hne) hbound)
  rw [countTable] at htotal ⊢
  rw [Exact.expectedCounts_tabulate_sum, htotal]
  refine tabulate_congr fun row hrow col hcol => ?_
  have hrowTotal : (sum (cols.map fun col => ofNat (f row col)) : α) =
      ofNat (rowTotal f cols row) := by
    have hle : (cols.map (f row)).sum ≤ bound := (rowTotal_le_tableTotal hrow).trans hbound
    have hnum := hsum (mt List.map_eq_nil_iff.1 hcols) hle
    rwa [List.map_map] at hnum
  have hcolumnTotal : (sum (rows.map fun row => ofNat (f row col)) : α) =
      ofNat (columnTotal f rows col) := by
    have hle : (rows.map fun row => f row col).sum ≤ bound :=
      (columnTotal_le_tableTotal hcol).trans hbound
    have hnum := hsum (mt List.map_eq_nil_iff.1 hne) hle
    rwa [List.map_map] at hnum
  rw [if_neg hpos, hrowTotal, hcolumnTotal]

/-- **All expected counts are positive.** -/
theorem expectedCounts_pos : ∀ x ∈ (expectedCounts (countTable α f rows cols)).flatten, 0 < x := by
  intro x hx
  rw [expectedCounts_countTable h hmargins hbound, Exact.tabulate, List.mem_flatten] at hx
  obtain ⟨_, hcells, hx⟩ := hx
  obtain ⟨row, hrow, rfl⟩ := List.mem_map.1 hcells
  obtain ⟨col, hcol, rfl⟩ := List.mem_map.1 hx
  exact h.scaled_pos (hmargins.rowTotal_pos row hrow) (hmargins.columnTotal_pos col hcol)
    (hmargins.tableTotal_pos (List.ne_nil_of_mem hrow))
    ((rowTotal_le_tableTotal hrow).trans hbound) ((columnTotal_le_tableTotal hcol).trans hbound)
    hbound

/-- **The chi-square test of a table of counts** without an empty row or column fails only if there
are fewer than two rows or fewer than two columns. -/
theorem chiSquareIndependence_countTable [Tails α] :
    chiSquareIndependence (countTable α f rows cols) =
      if rows.length < 2 ∨ cols.length < 2 then
        .error (.insufficientData 2 (min rows.length cols.length))
      else
        let free := (rows.length - 1) * (cols.length - 1)
        let chi2 := chiSquareStatistic (free = 1) (countTable α f rows cols)
          (expectedCounts (countTable α f rows cols))
        .ok (.clamped chi2 (Tails.chiSquare chi2 (ofNat free)) (some (ofNat free))) := by
  refine Exact.chiSquareIndependence_tabulate _ rows cols ?_
  rw [List.any_eq_false]
  intro x hx
  rw [decide_eq_true_iff]
  exact h.not_nonpos (expectedCounts_pos h hmargins hbound x hx)

/-- Which failures of the chi-square test there are. -/
theorem chiSquareIndependence_countTable_eq_error_iff [Tails α] {failure : SampleError} :
    chiSquareIndependence (countTable α f rows cols) = .error failure ↔
      (rows.length < 2 ∨ cols.length < 2) ∧
        failure = .insufficientData 2 (min rows.length cols.length) := by
  rw [chiSquareIndependence_countTable h hmargins hbound]
  split
  · rename_i hfew
    rw [and_iff_right hfew, Except.error.injEq]
    exact eq_comm
  · rename_i hmany
    exact iff_of_false (fun hok => by cases hok) fun herror => hmany herror.1

end Counts

end StudyAnalysis
