/-
**Reordering the rows and the columns of a table.**

Expected counts, the chi-square statistic and its degrees of freedom see the rows and the columns of
a table as collections.

Main definitions:

* `StudyAnalysis.Exact.expectedAt` — the expected count of a cell.

Main results:

* `StudyAnalysis.Exact.expectedCounts_tabulate` — expected counts cell by cell;
* `StudyAnalysis.Exact.least?_eq_of_perm` — the least number does not depend on an order;
* `StudyAnalysis.Exact.chiSquareIndependence_tabulate` — when the chi-square test fails;
* `StudyAnalysis.Exact.chiSquareStatistic_tabulate` — the statistic as a sum over the cells;
* `StudyAnalysis.Exact.chiSquareIndependence_eq_of_perm` — **rows and columns may be reordered**.
-/

import StudyAnalysis.Proofs.Statistics.Groups
import StudyAnalysis.Hypothesis.Properties
import StudyAnalysis.Statistics.Frequencies

set_option autoImplicit false
set_option relaxedAutoImplicit false

namespace StudyAnalysis

namespace Exact

open Numeric Fallible

/-! ### Expected counts -/

/-- The least of some numbers is their minimum. -/
theorem least?_eq_min? (xs : List ℝ) : least? xs = xs.min? := by
  cases xs with
  | nil => rfl
  | cons x xs =>
      have hstep : (fun best y : ℝ => if totalLe best y then best else y) = min := by
        funext best y
        simp only [totalLe_iff, min_def]
      rw [least?, hstep]
      rfl

/-- The least of some numbers does not depend on their order. -/
theorem least?_eq_of_perm {xs ys : List ℝ} (h : xs.Perm ys) : least? xs = least? ys := by
  rw [least?_eq_min?, least?_eq_min?]
  ext m
  rw [List.min?_eq_some_iff, List.min?_eq_some_iff]
  simp only [h.mem_iff]

section Tabulated

variable {ι κ β : Type} [Numeric β] (f : ι → κ → β) {rows : List ι}

omit [Numeric β] in
theorem columnCount_tabulate (hne : rows ≠ []) (cols : List κ) :
    columnCount (tabulate f rows cols) = cols.length := by
  obtain ⟨row, rest, rfl⟩ := List.exists_cons_of_ne_nil hne
  exact List.length_map _

theorem columnTotals_tabulate (hne : rows ≠ []) (cols : List κ) :
    columnTotals (tabulate f rows cols) = cols.map fun col => sum (rows.map fun r => f r col) := by
  refine List.ext_getElem ?_ fun j hj hj' => ?_
  · rw [columnTotals, List.length_map, List.length_range, columnCount_tabulate f hne,
      List.length_map]
  · rw [List.length_map] at hj'
    simp only [columnTotals, List.getElem_map, List.getElem_range, tabulate, List.map_map]
    refine congrArg sum (List.map_congr_left fun row _ => ?_)
    rw [Function.comp_apply, List.getD_eq_getElem _ _ (by rwa [List.length_map]), List.getElem_map]

/-- Expected counts as sums along rows and columns. -/
theorem expectedCounts_tabulate_sum (rows : List ι) (cols : List κ) :
    expectedCounts (tabulate f rows cols) =
      tabulate (fun row col => if sum (tabulate f rows cols).flatten ≤ 0 then 0
        else sum (cols.map (f row)) * sum (rows.map fun r => f r col) /
          sum (tabulate f rows cols).flatten) rows cols := by
  by_cases hne : rows = []
  · subst hne
    rw [expectedCounts]
    split <;> rfl
  rw [expectedCounts]
  by_cases htotal : sum (tabulate f rows cols).flatten ≤ 0
  · simp only [if_pos htotal]
    rw [tabulate, tabulate, List.map_map]
    refine List.map_congr_left fun row _ => ?_
    rw [Function.comp_apply, List.map_map]
    rfl
  · simp only [if_neg htotal]
    rw [columnTotals_tabulate f hne, tabulate, tabulate, List.map_map]
    refine List.map_congr_left fun row _ => ?_
    rw [Function.comp_apply, List.map_map]
    rfl

omit [Numeric β] in
/-- All rows of a table are equally long. -/
theorem forM_length_tabulate (rows : List ι) (cols : List κ) :
    ((tabulate f rows cols).forM fun row =>
      (if row.length ≠ cols.length then throw (.lengthMismatch cols.length row.length)
        else pure () : Except SampleError Unit)) = Except.ok () := by
  refine forM_eq_ok_iff.2 fun row hrow => ?_
  obtain ⟨_, -, rfl⟩ := List.mem_map.1 hrow
  rw [if_neg (not_not.2 (List.length_map _))]
  rfl

/-- The chi-square test of a table in which every cell is expected to have observations fails only if
there are fewer than two rows or fewer than two columns. -/
theorem chiSquareIndependence_tabulate [Tails β] (rows : List ι) (cols : List κ)
    (hpos : (expectedCounts (tabulate f rows cols)).flatten.any (· ≤ 0) = false) :
    chiSquareIndependence (tabulate f rows cols) =
      if rows.length < 2 ∨ cols.length < 2 then
        .error (.insufficientData 2 (min rows.length cols.length))
      else
        let free := (rows.length - 1) * (cols.length - 1)
        let chi2 := chiSquareStatistic (free = 1) (tabulate f rows cols)
          (expectedCounts (tabulate f rows cols))
        .ok (.clamped chi2 (Tails.chiSquare chi2 (ofNat free)) (some (ofNat free))) := by
  by_cases hne : rows = []
  · subst hne
    rw [List.length_nil, Nat.zero_min]
    rfl
  have hlength : (tabulate f rows cols).length = rows.length := List.length_map _
  rw [chiSquareIndependence]
  dsimp only
  rw [hlength, columnCount_tabulate f hne]
  by_cases hfew : rows.length < 2 ∨ cols.length < 2
  · rw [if_pos hfew, if_pos hfew]
    rfl
  · rw [if_neg hfew, if_neg hfew, forM_length_tabulate f rows cols, hpos]
    rfl

end Tabulated

section Tables

variable {ι κ : Type} (f : ι → κ → ℝ) {rows rows' : List ι} {cols cols' : List κ}

/-- The expected count of a cell: the product of the totals of its row and of its column in units of
the total. -/
noncomputable def expectedAt (rows : List ι) (cols : List κ) (row : ι) (col : κ) : ℝ :=
  if (tabulate f rows cols).flatten.sum ≤ 0 then 0
  else (cols.map (f row)).sum * (rows.map fun r => f r col).sum / (tabulate f rows cols).flatten.sum

/-- **Expected counts, cell by cell.** -/
theorem expectedCounts_tabulate (rows : List ι) (cols : List κ) :
    expectedCounts (tabulate f rows cols) = tabulate (expectedAt f rows cols) rows cols := by
  rw [expectedCounts_tabulate_sum]
  simp only [sum_eq, numeral_zero]
  rfl

theorem expectedAt_eq_of_perm (hrows : rows.Perm rows') (hcols : cols.Perm cols') :
    expectedAt f rows cols = expectedAt f rows' cols' := by
  have htotal := (Regrouped.tabulate f hrows hcols).flatten_perm.sum_eq
  funext row col
  rw [expectedAt, expectedAt, htotal, (hcols.map _).sum_eq, (hrows.map _).sum_eq]

/-- **The least expected count does not depend on the order of rows and columns.** -/
theorem least?_expectedCounts_eq (hrows : rows.Perm rows') (hcols : cols.Perm cols') :
    least? (expectedCounts (tabulate f rows cols)).flatten =
      least? (expectedCounts (tabulate f rows' cols')).flatten := by
  rw [expectedCounts_tabulate, expectedCounts_tabulate, expectedAt_eq_of_perm f hrows hcols]
  exact least?_eq_of_perm (Regrouped.tabulate _ hrows hcols).flatten_perm

/-! ### The chi-square test -/

/-- The chi-square statistic as a sum over the cells. -/
theorem chiSquareStatistic_tabulate (corrected : Bool) (g : ι → κ → ℝ) (rows : List ι)
    (cols : List κ) : chiSquareStatistic corrected (tabulate f rows cols) (tabulate g rows cols) =
      (tabulate (fun row col => countDistance corrected (f row col) (g row col) *
        countDistance corrected (f row col) (g row col) / g row col) rows cols).flatten.sum := by
  have hzip : List.zipWith List.zip (tabulate f rows cols) (tabulate g rows cols) =
      tabulate (fun row col => (f row col, g row col)) rows cols := by
    rw [tabulate, tabulate, List.zipWith_map, List.zipWith_self]
    refine List.map_congr_left fun row _ => ?_
    rw [List.zip_eq_zipWith, List.zipWith_map, List.zipWith_self]
  have hfold := foldl_add_eq (fun cell : ℝ × ℝ => countDistance corrected cell.1 cell.2 *
    countDistance corrected cell.1 cell.2 / cell.2)
    (tabulate (fun row col => (f row col, g row col)) rows cols).flatten 0
  rw [chiSquareStatistic, hzip, numeral_zero]
  refine hfold.trans ?_
  rw [zero_add, List.map_flatten, tabulate, tabulate, List.map_map]
  refine congrArg (fun table => (List.flatten table).sum) (List.map_congr_left fun row _ => ?_)
  rw [Function.comp_apply, List.map_map]
  rfl

variable [Tails ℝ]

/-- **The chi-square test does not depend on the order of rows and columns.** -/
theorem chiSquareIndependence_eq_of_perm (hrows : rows.Perm rows') (hcols : cols.Perm cols') :
    chiSquareIndependence (tabulate f rows cols) =
      chiSquareIndependence (tabulate f rows' cols') := by
  by_cases hne : rows = []
  · obtain rfl : rows' = [] := by rwa [hne, List.nil_perm] at hrows
    rw [hne]
    rfl
  have hne' : rows' ≠ [] := fun h => hne (by rwa [h, List.perm_nil] at hrows)
  have hlength : (tabulate f rows cols).length = (tabulate f rows' cols').length :=
    (Regrouped.tabulate f hrows hcols).length_eq
  have hany : (tabulate (expectedAt f rows' cols') rows cols).flatten.any (fun e => decide (e ≤ 0)) =
      (tabulate (expectedAt f rows' cols') rows' cols').flatten.any (fun e => decide (e ≤ 0)) :=
    (Regrouped.tabulate _ hrows hcols).flatten_perm.any_eq
  have hstatistic : ∀ corrected, chiSquareStatistic corrected (tabulate f rows cols)
        (tabulate (expectedAt f rows' cols') rows cols) =
      chiSquareStatistic corrected (tabulate f rows' cols')
        (tabulate (expectedAt f rows' cols') rows' cols') := by
    intro corrected
    rw [chiSquareStatistic_tabulate, chiSquareStatistic_tabulate]
    exact (Regrouped.tabulate _ hrows hcols).flatten_perm.sum_eq
  rw [chiSquareIndependence, chiSquareIndependence]
  dsimp only
  rw [columnCount_tabulate f hne, columnCount_tabulate f hne', expectedCounts_tabulate,
    expectedCounts_tabulate, expectedAt_eq_of_perm f hrows hcols, forM_length_tabulate,
    forM_length_tabulate, hlength, hcols.length_eq, numeral_zero, hany, hstatistic]

end Tables

end Exact

end StudyAnalysis
