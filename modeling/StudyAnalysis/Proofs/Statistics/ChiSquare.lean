/-
**The chi-square statistic as a measure of association.**

The expected counts of a table have the margins of the table, so that the deviations of the observed
from the expected counts add up to nothing along every row and every column.  Expanding their squares
gives the statistic as the total times what `∑ o² / (r c)` exceeds one, where `r` and `c` are the
totals of the row and of the column of a cell.  A count is at most the total of its column, so that
the cells of one row contribute at most `∑ o / r = 1` to this sum, and the sum is at most the number
of rows; in the same way it is at most the number of columns.  The share of the statistic in the
greatest value that it can have is the square of Cramér's coefficient.

Main definitions:

* `StudyAnalysis.Exact.rowSum`, `StudyAnalysis.Exact.columnSum`, `StudyAnalysis.Exact.tableSum` — the
  totals of a table;
* `StudyAnalysis.Exact.Filled` — no frequency is negative and no row or column is empty;
* `StudyAnalysis.Exact.association` — the sum of the squared frequencies in units of both totals;
* `StudyAnalysis.Exact.FrequencyTable` — a filled table of at least two rows and columns;
* `StudyAnalysis.Exact.transposedTable` — a table with its rows and columns exchanged.

Main results:

* `StudyAnalysis.Exact.Filled.rowSum_expectedAt`, `StudyAnalysis.Exact.Filled.columnSum_expectedAt` —
  **expected counts have the margins of the table**;
* `StudyAnalysis.Exact.Filled.pearson_eq` — the uncorrected statistic in closed form;
* `StudyAnalysis.Exact.Filled.association_le` — **the bound for each dimension**;
* `StudyAnalysis.Exact.chiSquareStatistic_corrected_le` — the correction makes the statistic smaller;
* `StudyAnalysis.Exact.Filled.statistic_mem_Icc` — **the range of the statistic**;
* `StudyAnalysis.Exact.cramersV_mem_Icc` — **and that of Cramér's coefficient**;
* `StudyAnalysis.Exact.Filled.chiSquareIndependence_eq` — the test in closed form;
* `StudyAnalysis.Exact.Filled.chiSquareIndependence_transpose` — rows and columns may be exchanged.
-/

import StudyAnalysis.Proofs.Statistics.Tables

set_option autoImplicit false
set_option relaxedAutoImplicit false

namespace StudyAnalysis.Exact

open Numeric Fallible

/-! ### Totals -/

section Totals

variable {ι κ : Type} (f : ι → κ → ℝ) (rows : List ι) (cols : List κ)

/-- The total of a row. -/
def rowSum (row : ι) : ℝ :=
  (cols.map (f row)).sum

/-- The total of a column. -/
def columnSum (col : κ) : ℝ :=
  (rows.map fun row => f row col).sum

/-- The total of a table. -/
def tableSum : ℝ :=
  (rows.map (rowSum f cols)).sum

theorem tableSum_eq : tableSum f rows cols = (rows.map fun row => (cols.map (f row)).sum).sum :=
  rfl

theorem sum_flatten_cells : (tabulate f rows cols).flatten.sum = tableSum f rows cols := by
  rw [List.sum_flatten, tabulate, List.map_map]
  rfl

theorem tableSum_eq_sum_columnSum : tableSum f rows cols = (cols.map (columnSum f rows)).sum :=
  sum_map_sum_comm f rows cols

/-- A table and its transpose have one total. -/
theorem tableSum_transpose : tableSum (fun col row => f row col) cols rows = tableSum f rows cols :=
  (tableSum_eq_sum_columnSum f rows cols).symm

/-- No frequency is negative, and no row and no column is empty. -/
structure Filled : Prop where
  nonneg : ∀ row ∈ rows, ∀ col ∈ cols, 0 ≤ f row col
  rowSum_pos : ∀ row ∈ rows, 0 < rowSum f cols row
  columnSum_pos : ∀ col ∈ cols, 0 < columnSum f rows col

end Totals

namespace Filled

section Expected

variable {ι κ : Type} {f : ι → κ → ℝ} {rows : List ι} {cols : List κ} (h : Filled f rows cols)

include h

theorem transpose : Filled (fun col row => f row col) cols rows :=
  ⟨fun col hcol row hrow => h.nonneg row hrow col hcol, h.columnSum_pos, h.rowSum_pos⟩

variable {row : ι} {col : κ}

theorem tableSum_pos (hrow : row ∈ rows) : 0 < tableSum f rows cols := by
  refine List.sum_pos _ (fun r hr => ?_) (List.map_eq_nil_iff.not.2 (List.ne_nil_of_mem hrow))
  obtain ⟨row', hrow', rfl⟩ := List.mem_map.1 hr
  exact h.rowSum_pos row' hrow'

theorem le_columnSum (hrow : row ∈ rows) (hcol : col ∈ cols) : f row col ≤ columnSum f rows col := by
  refine List.single_le_sum (fun x hx => ?_) _ (List.mem_map_of_mem hrow)
  obtain ⟨row', hrow', rfl⟩ := List.mem_map.1 hx
  exact h.nonneg row' hrow' col hcol

/-! ### Expected counts -/

theorem expectedAt_eq (hrow : row ∈ rows) (col : κ) : expectedAt f rows cols row col =
    rowSum f cols row * columnSum f rows col / tableSum f rows cols := by
  rw [expectedAt, sum_flatten_cells, if_neg (h.tableSum_pos hrow).not_ge]
  rfl

theorem expectedAt_pos (hrow : row ∈ rows) (hcol : col ∈ cols) :
    0 < expectedAt f rows cols row col := by
  rw [h.expectedAt_eq hrow]
  exact div_pos (mul_pos (h.rowSum_pos row hrow) (h.columnSum_pos col hcol)) (h.tableSum_pos hrow)

/-- **The expected counts of a row add up to its total.** -/
theorem rowSum_expectedAt (hrow : row ∈ rows) :
    rowSum (expectedAt f rows cols) cols row = rowSum f cols row := by
  have htotal := (h.tableSum_pos hrow).ne'
  calc rowSum (expectedAt f rows cols) cols row
      = (cols.map fun col =>
          rowSum f cols row / tableSum f rows cols * columnSum f rows col).sum := by
        refine congrArg List.sum (List.map_congr_left fun col _ => ?_)
        rw [h.expectedAt_eq hrow, div_mul_eq_mul_div]
    _ = rowSum f cols row / tableSum f rows cols * tableSum f rows cols := by
        rw [List.sum_map_mul_left, ← tableSum_eq_sum_columnSum]
    _ = rowSum f cols row := div_mul_cancel₀ _ htotal

/-- Exchanging rows and columns exchanges the expected counts. -/
theorem expectedAt_transpose (hrow : row ∈ rows) (hcol : col ∈ cols) :
    expectedAt (fun col row => f row col) cols rows col row = expectedAt f rows cols row col := by
  rw [h.transpose.expectedAt_eq hcol, h.expectedAt_eq hrow, tableSum_transpose, mul_comm]
  rfl

/-- **The expected counts of a column add up to its total.** -/
theorem columnSum_expectedAt (hcol : col ∈ cols) :
    columnSum (expectedAt f rows cols) rows col = columnSum f rows col := by
  refine .trans (congrArg List.sum (List.map_congr_left fun row hrow => ?_))
    (h.transpose.rowSum_expectedAt hcol)
  exact (h.expectedAt_transpose hrow hcol).symm

end Expected

end Filled

/-! ### The statistic -/

section Statistic

/-- The squared distance of an observed from an expected count, in units of the latter. -/
noncomputable def cellTerm (corrected : Bool) (observed expected : ℝ) : ℝ :=
  countDistance corrected observed expected * countDistance corrected observed expected / expected

theorem countDistance_uncorrected (o e : ℝ) : countDistance false o e = |o - e| := rfl

theorem countDistance_corrected (o e : ℝ) : countDistance true o e = max (|o - e| - 1 / 2) 0 := by
  have htwo : @OfNat.ofNat ℝ 2 (instNumeral 2) = 2 := Nat.cast_two
  rw [countDistance, if_pos rfl, numeral_zero, numeral_one, htwo, max_def']
  rfl

theorem countDistance_nonneg (corrected : Bool) (o e : ℝ) : 0 ≤ countDistance corrected o e := by
  cases corrected with
  | false => exact abs_nonneg _
  | true => exact countDistance_corrected o e ▸ le_max_right _ _

/-- A correction brings a count nearer to what is expected. -/
theorem countDistance_corrected_le (o e : ℝ) :
    countDistance true o e ≤ countDistance false o e := by
  rw [countDistance_corrected, countDistance_uncorrected]
  exact max_le (sub_le_self _ one_half_pos.le) (abs_nonneg _)

variable {ι κ : Type} {f : ι → κ → ℝ} {rows : List ι} {cols : List κ}

/-- The statistic as a sum over rows and columns. -/
theorem chiSquareStatistic_eq (corrected : Bool) :
    chiSquareStatistic corrected (tabulate f rows cols) (expectedCounts (tabulate f rows cols)) =
      tableSum (fun row col => cellTerm corrected (f row col) (expectedAt f rows cols row col))
        rows cols := by
  rw [expectedCounts_tabulate, chiSquareStatistic_tabulate, sum_flatten_cells]
  rfl

theorem tableSum_le_tableSum {g g' : ι → κ → ℝ}
    (h : ∀ row ∈ rows, ∀ col ∈ cols, g row col ≤ g' row col) :
    tableSum g rows cols ≤ tableSum g' rows cols :=
  List.sum_le_sum fun row hrow => List.sum_le_sum (h row hrow)

theorem tableSum_congr {g g' : ι → κ → ℝ}
    (h : ∀ row ∈ rows, ∀ col ∈ cols, g row col = g' row col) :
    tableSum g rows cols = tableSum g' rows cols :=
  congrArg List.sum (List.map_congr_left fun row hrow =>
    congrArg List.sum (List.map_congr_left (h row hrow)))

theorem tableSum_add (g g' : ι → κ → ℝ) :
    tableSum (fun row col => g row col + g' row col) rows cols =
      tableSum g rows cols + tableSum g' rows cols := by
  simp only [tableSum_eq, List.sum_map_add]

theorem tableSum_mul_left (c : ℝ) (g : ι → κ → ℝ) :
    tableSum (fun row col => c * g row col) rows cols = c * tableSum g rows cols := by
  simp only [tableSum_eq, List.sum_map_mul_left]

/-- The sum of the squared frequencies, each in units of the totals of its row and of its column. -/
noncomputable def association (f : ι → κ → ℝ) (rows : List ι) (cols : List κ) : ℝ :=
  tableSum (fun row col => square (f row col) / (rowSum f cols row * columnSum f rows col)) rows cols

theorem association_transpose :
    association (fun col row => f row col) cols rows = association f rows cols := by
  rw [association, association, ← tableSum_transpose]
  refine tableSum_congr fun row _ col _ => ?_
  rw [mul_comm]
  rfl

namespace Filled

variable (h : Filled f rows cols)

include h

/-- **The correction makes the statistic smaller.** -/
theorem chiSquareStatistic_corrected_le :
    chiSquareStatistic true (tabulate f rows cols) (expectedCounts (tabulate f rows cols)) ≤
      chiSquareStatistic false (tabulate f rows cols) (expectedCounts (tabulate f rows cols)) := by
  rw [chiSquareStatistic_eq, chiSquareStatistic_eq]
  refine tableSum_le_tableSum fun row hrow col hcol => ?_
  have hle := countDistance_corrected_le (f row col) (expectedAt f rows cols row col)
  have hnonneg := countDistance_nonneg true (f row col) (expectedAt f rows cols row col)
  exact div_le_div_of_nonneg_right (mul_le_mul hle hle hnonneg (hnonneg.trans hle))
    (h.expectedAt_pos hrow hcol).le

theorem chiSquareStatistic_nonneg (corrected : Bool) :
    0 ≤ chiSquareStatistic corrected (tabulate f rows cols)
      (expectedCounts (tabulate f rows cols)) := by
  rw [chiSquareStatistic_eq]
  refine List.sum_nonneg fun r hr => ?_
  obtain ⟨row, hrow, rfl⟩ := List.mem_map.1 hr
  refine List.sum_nonneg fun t ht => ?_
  obtain ⟨col, hcol, rfl⟩ := List.mem_map.1 ht
  exact div_nonneg (mul_self_nonneg _) (h.expectedAt_pos hrow hcol).le

/-- **The uncorrected statistic in closed form.** -/
theorem pearson_eq :
    chiSquareStatistic false (tabulate f rows cols) (expectedCounts (tabulate f rows cols)) =
      tableSum f rows cols * (association f rows cols - 1) := by
  have hcell : ∀ row ∈ rows, ∀ col ∈ cols,
      cellTerm false (f row col) (expectedAt f rows cols row col) =
        tableSum f rows cols *
          (square (f row col) / (rowSum f cols row * columnSum f rows col)) +
        (-2 * f row col + expectedAt f rows cols row col) := by
    intro row hrow col hcol
    have htotal := (h.tableSum_pos hrow).ne'
    have hrowSum := (h.rowSum_pos row hrow).ne'
    have hcolumnSum := (h.columnSum_pos col hcol).ne'
    rw [cellTerm, countDistance_uncorrected, abs_mul_abs_self, h.expectedAt_eq hrow, square_eq]
    field_simp
    ring
  have hexpected : tableSum (expectedAt f rows cols) rows cols = tableSum f rows cols :=
    congrArg List.sum (List.map_congr_left fun row hrow => h.rowSum_expectedAt hrow)
  rw [chiSquareStatistic_eq, tableSum_congr hcell, tableSum_add, tableSum_mul_left, tableSum_add,
    tableSum_mul_left, hexpected, association]
  ring

/-- **The cells of a row contribute at most one**, since a count is at most the total of its
column. -/
theorem association_le_rows : association f rows cols ≤ rows.length := by
  have hrow : ∀ row ∈ rows, (cols.map fun col =>
      square (f row col) / (rowSum f cols row * columnSum f rows col)).sum ≤ 1 := by
    intro row hrow
    have hpos := h.rowSum_pos row hrow
    calc (cols.map fun col =>
          square (f row col) / (rowSum f cols row * columnSum f rows col)).sum
        ≤ (cols.map fun col => (rowSum f cols row)⁻¹ * f row col).sum := by
          refine List.sum_le_sum fun col hcol => ?_
          have hcolumn := h.columnSum_pos col hcol
          rw [square_eq, div_le_iff₀ (mul_pos hpos hcolumn)]
          calc f row col * f row col ≤ f row col * columnSum f rows col :=
                mul_le_mul_of_nonneg_left (h.le_columnSum hrow hcol) (h.nonneg row hrow col hcol)
            _ = (rowSum f cols row)⁻¹ * f row col * (rowSum f cols row * columnSum f rows col) := by
                field_simp
      _ = (rowSum f cols row)⁻¹ * rowSum f cols row := by
          rw [List.sum_map_mul_left]
          rfl
      _ = 1 := inv_mul_cancel₀ hpos.ne'
  have hsum := List.sum_le_card_nsmul (rows.map fun row => (cols.map fun col =>
    square (f row col) / (rowSum f cols row * columnSum f rows col)).sum) 1
    (List.forall_mem_map.2 hrow)
  rwa [List.length_map, nsmul_one] at hsum

/-- **The bound for each dimension.** -/
theorem association_le : association f rows cols ≤ (min rows.length cols.length : ℕ) := by
  rw [Nat.cast_min]
  refine le_min h.association_le_rows ?_
  rw [← association_transpose]
  exact h.transpose.association_le_rows

/-- **The range of the statistic**, with or without a correction. -/
theorem statistic_mem_Icc (corrected : Bool) :
    chiSquareStatistic corrected (tabulate f rows cols) (expectedCounts (tabulate f rows cols)) ∈
      Set.Icc 0 (tableSum f rows cols * ((min rows.length cols.length : ℕ) - 1)) := by
  refine ⟨h.chiSquareStatistic_nonneg corrected, ?_⟩
  have huncorrected : chiSquareStatistic false (tabulate f rows cols)
      (expectedCounts (tabulate f rows cols)) ≤
        tableSum f rows cols * ((min rows.length cols.length : ℕ) - 1) := by
    rw [h.pearson_eq]
    have htotal : 0 ≤ tableSum f rows cols := by
      refine List.sum_nonneg fun r hr => ?_
      obtain ⟨row, hrow, rfl⟩ := List.mem_map.1 hr
      exact (h.rowSum_pos row hrow).le
    exact mul_le_mul_of_nonneg_left (sub_le_sub_right h.association_le 1) htotal
  cases corrected with
  | false => exact huncorrected
  | true => exact h.chiSquareStatistic_corrected_le.trans huncorrected

/-- Exchanging rows and columns keeps the statistic. -/
theorem chiSquareStatistic_transpose (corrected : Bool) :
    chiSquareStatistic corrected (tabulate (fun col row => f row col) cols rows)
        (expectedCounts (tabulate (fun col row => f row col) cols rows)) =
      chiSquareStatistic corrected (tabulate f rows cols)
        (expectedCounts (tabulate f rows cols)) := by
  rw [chiSquareStatistic_eq, chiSquareStatistic_eq, ← tableSum_transpose]
  refine tableSum_congr fun row hrow col hcol => ?_
  rw [h.expectedAt_transpose hrow hcol]

/-! ### The test -/

variable [Tails ℝ]

/-- **The test in closed form.** -/
theorem chiSquareIndependence_eq (hrows : 2 ≤ rows.length) (hcols : 2 ≤ cols.length) :
    let free := (rows.length - 1) * (cols.length - 1)
    let chi2 := chiSquareStatistic (free = 1) (tabulate f rows cols)
      (expectedCounts (tabulate f rows cols))
    chiSquareIndependence (tabulate f rows cols) =
      .ok (.clamped chi2 (Tails.chiSquare chi2 free) (some (free : ℝ))) := by
  intro free chi2
  refine (chiSquareIndependence_tabulate f rows cols ?_).trans (if_neg (by omega))
  rw [expectedCounts_tabulate, List.any_eq_false]
  intro x hx
  obtain ⟨_, hcells, hx⟩ := List.mem_flatten.1 hx
  obtain ⟨row, hrow, rfl⟩ := List.mem_map.1 hcells
  obtain ⟨col, hcol, rfl⟩ := List.mem_map.1 hx
  rw [decide_eq_true_iff, numeral_zero]
  exact (h.expectedAt_pos hrow hcol).not_ge

/-- **Rows and columns may be exchanged for each other.** -/
theorem chiSquareIndependence_transpose (hrows : 2 ≤ rows.length) (hcols : 2 ≤ cols.length) :
    chiSquareIndependence (tabulate (fun col row => f row col) cols rows) =
      chiSquareIndependence (tabulate f rows cols) := by
  rw [h.transpose.chiSquareIndependence_eq hcols hrows, h.chiSquareIndependence_eq hrows hcols,
    mul_comm]
  simp only [h.chiSquareStatistic_transpose]

end Filled

end Statistic

/-! ### Cramér's coefficient -/

/-- **Cramér's coefficient of a statistic in its range** is a number from zero to one. -/
theorem cramersV_mem_Icc {chi2 n : ℝ} {rows cols : ℕ} (hk : 1 ≤ min rows cols)
    (h : chi2 ∈ Set.Icc 0 (n * ((min rows cols : ℕ) - 1))) :
    cramersV chi2 n rows cols ∈ Set.Icc 0 1 := by
  rw [cramersV]
  split
  · rw [numeral_zero]
    exact ⟨le_refl 0, zero_le_one⟩
  · rename_i hpos
    rw [numeral_zero, ofNat_eq, not_or, not_le, not_le] at hpos
    rw [ofNat_eq, Nat.cast_sub hk, Nat.cast_one] at *
    refine ⟨Real.sqrt_nonneg _, Real.sqrt_le_one.2 ?_⟩
    exact (div_le_one (mul_pos hpos.1 hpos.2)).2 h.2

/-! ### Tables as lists of rows -/

section Lists

/-- A table of at least two rows and two columns of frequencies, none of which is negative, without an
empty row or column. -/
structure FrequencyTable (table : List (List ℝ)) : Prop where
  two_le_rows : 2 ≤ table.length
  two_le_cols : 2 ≤ columnCount table
  rectangular : ∀ row ∈ table, row.length = columnCount table
  nonneg : ∀ row ∈ table, ∀ x ∈ row, 0 ≤ x
  row_pos : ∀ row ∈ table, 0 < row.sum
  column_pos : ∀ total ∈ columnTotals table, 0 < total

/-- The table with its rows and columns exchanged for each other. -/
def transposedTable (table : List (List ℝ)) : List (List ℝ) :=
  (List.range (columnCount table)).map fun j => table.map (·.getD j 0)

variable {table : List (List ℝ)}

/-- A table whose rows are equally long is read cell by cell. -/
theorem tabulate_getD {β : Type} {d : β} {table : List (List β)} {n : ℕ}
    (h : ∀ row ∈ table, row.length = n) :
    tabulate (fun (row : List β) j => row.getD j d) table (List.range n) = table := by
  rw [tabulate]
  conv_rhs => rw [← List.map_id table]
  exact List.map_congr_left fun row hrow => map_getD_range row (h row hrow)

namespace FrequencyTable

variable (h : FrequencyTable table)

include h

theorem tabulate_eq :
    tabulate (fun (row : List ℝ) j => row.getD j 0) table (List.range (columnCount table)) = table :=
  tabulate_getD h.rectangular

theorem rowSum_eq {row : List ℝ} (hrow : row ∈ table) :
    rowSum (fun (row : List ℝ) j => row.getD j 0) (List.range (columnCount table)) row = row.sum :=
  congrArg List.sum (map_getD_range row (h.rectangular row hrow))

omit h in
theorem columnTotals_eq : columnTotals table = (List.range (columnCount table)).map
    (columnSum (fun (row : List ℝ) j => row.getD j 0) table) := by
  simp only [columnTotals, sum_eq, numeral_zero]
  rfl

theorem filled : Filled (fun (row : List ℝ) j => row.getD j 0) table
    (List.range (columnCount table)) where
  nonneg row hrow j hj := by
    rw [List.mem_range, ← h.rectangular row hrow] at hj
    rw [List.getD_eq_getElem _ _ hj]
    exact h.nonneg row hrow _ (List.getElem_mem hj)
  rowSum_pos row hrow := h.rowSum_eq hrow ▸ h.row_pos row hrow
  columnSum_pos j hj := h.column_pos _ (columnTotals_eq ▸ List.mem_map_of_mem hj)

theorem tableSum_eq_sum_flatten : tableSum (fun (row : List ℝ) j => row.getD j 0) table
    (List.range (columnCount table)) = table.flatten.sum := by
  rw [← sum_flatten_cells, h.tabulate_eq]

theorem expectedCounts_eq : expectedCounts table =
    tabulate (expectedAt (fun (row : List ℝ) j => row.getD j 0) table
      (List.range (columnCount table))) table (List.range (columnCount table)) := by
  conv_lhs => rw [← h.tabulate_eq]
  exact expectedCounts_tabulate _ table _

/-- **Expected counts have the totals of the rows.** -/
theorem sums_expectedCounts : (expectedCounts table).map List.sum = table.map List.sum := by
  rw [h.expectedCounts_eq, tabulate, List.map_map]
  exact List.map_congr_left fun row hrow =>
    (h.filled.rowSum_expectedAt hrow).trans (h.rowSum_eq hrow)

/-- **Expected counts have the totals of the columns.** -/
theorem columnTotals_expectedCounts :
    columnTotals (expectedCounts table) = columnTotals table := by
  have hne : table ≠ [] := List.ne_nil_of_length_pos (Nat.zero_lt_two.trans_le h.two_le_rows)
  rw [h.expectedCounts_eq, columnTotals_tabulate _ hne, columnTotals_eq]
  refine List.map_congr_left fun j hj => ?_
  rw [sum_eq]
  exact h.filled.columnSum_expectedAt hj

theorem chiSquareStatistic_corrected_le :
    chiSquareStatistic true table (expectedCounts table) ≤
      chiSquareStatistic false table (expectedCounts table) := by
  have hle := h.filled.chiSquareStatistic_corrected_le
  rwa [h.tabulate_eq] at hle

theorem statistic_mem_Icc (corrected : Bool) :
    chiSquareStatistic corrected table (expectedCounts table) ∈
      Set.Icc 0 (table.flatten.sum * ((min table.length (columnCount table) : ℕ) - 1)) := by
  have hrange := h.filled.statistic_mem_Icc corrected
  rwa [h.tabulate_eq, h.tableSum_eq_sum_flatten, List.length_range] at hrange

variable [Tails ℝ]

/-- **The test of a table of frequencies**: only a table of two rows and two columns is corrected. -/
theorem chiSquareIndependence_eq :
    let free := (table.length - 1) * (columnCount table - 1)
    let chi2 := chiSquareStatistic (table.length = 2 ∧ columnCount table = 2) table
      (expectedCounts table)
    chiSquareIndependence table = .ok (.clamped chi2 (Tails.chiSquare chi2 free) (some (free : ℝ))) := by
  have hrows := h.two_le_rows
  have hcols := h.two_le_cols
  have hok := h.filled.chiSquareIndependence_eq hrows (List.length_range.symm ▸ hcols)
  have hcorrected : decide ((table.length - 1) * (columnCount table - 1) = 1) =
      decide (table.length = 2 ∧ columnCount table = 2) := by
    rw [decide_eq_decide, mul_eq_one]
    omega
  dsimp only at hok ⊢
  rw [h.tabulate_eq, List.length_range, hcorrected] at hok
  exact hok

/-- **Rows and columns may be exchanged for each other.** -/
theorem chiSquareIndependence_transposedTable :
    chiSquareIndependence (transposedTable table) = chiSquareIndependence table := by
  have htransposed := h.filled.chiSquareIndependence_transpose h.two_le_rows
    (List.length_range.symm ▸ h.two_le_cols)
  rw [h.tabulate_eq] at htransposed
  exact htransposed

/-- **Rows and columns may be reordered.** -/
theorem chiSquareIndependence_reorder {rows : List (List ℝ)} {places : List ℕ}
    (hrows : rows.Perm table) (hplaces : places.Perm (List.range (columnCount table))) :
    chiSquareIndependence (rows.map fun row => places.map fun j => row.getD j 0) =
      chiSquareIndependence table := by
  conv_rhs => rw [← h.tabulate_eq]
  exact chiSquareIndependence_eq_of_perm _ hrows hplaces

end FrequencyTable

end Lists

end StudyAnalysis.Exact
