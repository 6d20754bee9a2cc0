/-
**What the tests of a table answer and report.**

The chi-square test of a table of frequencies and the exact test of a table of two rows and two
columns both see no more of the table than its cells: its rows and columns may be reordered, and
exchanged for each other.  The chi-square test reports its statistic on a scale from zero to one.  The
exact test answers a probability that is never below that of the observed table.

Main results:

* `StudyAnalysis.Exact.fisherExact_sums_same_margins` — **the exact test** adds up tables with the
  observed margins, all of which have the total probability one;
* `StudyAnalysis.Exact.chiSquareIndependence_reports_association` — **the chi-square test** reports
  an association from zero to one.
-/

import StudyAnalysis.Proofs.Selection.RankTests
import StudyAnalysis.Proofs.Statistics.ChiSquare
import StudyAnalysis.Proofs.Statistics.ExactTest

set_option autoImplicit false
set_option relaxedAutoImplicit false

namespace StudyAnalysis.Exact

open Numeric Fallible

/-! ### The exact test -/

section ExactTest

theorem exists_of_answer_eq_some {x : Except SampleError (TestOutput ℝ)} {p : ℝ} {df : Option ℝ}
    (h : answer x = some (p, df)) : ∃ out, x = .ok out ∧ out.pValue = p := by
  cases x with
  | error err => cases h
  | ok out => exact ⟨out, rfl, congrArg Prod.fst (Option.some.inj h)⟩

/-- A table that is answered like another one, with products that fit if those of the other do. -/
theorem exists_fisherExact_of_alike {s t : Fourfold} {out : TestOutput ℝ}
    (hanswer : answer (fisherExact s) = answer (fisherExact t : Except SampleError (TestOutput ℝ)))
    (hproducts : s.productsFit = t.productsFit) (h : fisherExact t = .ok out) :
    ∃ out' : TestOutput ℝ, fisherExact s = .ok out' ∧ out'.pValue = out.pValue ∧
      fisherExactChecked? s = if t.productsFit then some (.ok out') else none := by
  rw [h, answer_ok] at hanswer
  obtain ⟨out', hout', hp⟩ := exists_of_answer_eq_some hanswer
  exact ⟨out', hout', hp, by rw [fisherExactChecked?_eq, hproducts, hout']⟩

variable [Tails ℝ]

theorem execute_fisherExact {t : Fourfold} {out : TestOutput ℝ} (h : fisherExact t = .ok out)
    (rows cols : List String) (settings : Settings ℝ) :
    ∃ x, execute .fisherExact (.contingency rows cols [[(t.a : ℝ), t.b], [(t.c : ℝ), t.d]]) settings
      = .ok x ∧ x.output = out := by
  refine ⟨.ofEffect out "odds_ratio" out.statistic, mapError_eq_ok_iff.2 ?_, rfl⟩
  rw [runTest, fourfold]
  simp only [toNat_natCast, ok_bind, h, pure_eq_ok]

/-- **The exact test adds up the probabilities of tables with the observed margins.**  Their total
has to fit into a word; then so do all counts that the probabilities are computed from.  The test
runs through the first cells that leave no cell negative, so that no difference of counts is cut off
at zero, and the observed one is among them.  All of them together have the probability one.  So the
p-value lies between the probability of the observed table and one before it is moved into the unit
interval, for whatever factor is allowed for rounding, and it has the symmetries of the table.  The
statistic is the odds ratio as long as the products of opposite cells fit into words; where they do
not, the p-value is the same, and the test with checked products stops. -/
theorem fisherExact_sums_same_margins {t : Fourfold} (h : 0 < t.total)
    (hfits : Word.fits t.total = true) (rows cols : List String) (settings : Settings ℝ) :
    (∀ x : ℕ, x ∈ t.firstCells ↔
      0 ≤ (t.row1 - x : ℤ) ∧ 0 ≤ (t.col1 - x : ℤ) ∧ 0 ≤ (t.row2 + x - t.col1 : ℤ)) ∧
    (∀ x ∈ t.firstCells, x ≤ t.row1 ∧ x ≤ t.col1 ∧ t.col1 ≤ t.row2 + x ∧ t.row2 + x ≤ t.total) ∧
    t.col1 ≤ t.total ∧
    (∀ x ∈ t.firstCells, ∀ n ∈ [t.row1, t.row2, t.col1, t.row2 + x], Word.fits n = true) ∧
    (∀ s : Fourfold, s.SameMargins t ↔ ∃ x ∈ t.firstCells, s = t.withFirst x) ∧
    t.a ∈ t.firstCells ∧
    (t.firstCells.map (probability t)).sum = 1 ∧
    (∀ factor : ℝ, 1 ≤ factor → tailWithin factor t ∈ Set.Icc (probability t t.a) 1 ∧
      ∀ s ∈ [t.swapRows, t.swapCols, t.transposed], tailWithin factor s = tailWithin factor t) ∧
    (t.tailProbability : ℝ) = tailWithin (Real.exp (1 / 10000000)) t ∧
    (t.total < 2 ^ 33 → t.productsFit = true) ∧
    ∃ out : TestOutput ℝ, fisherExact t = .ok out ∧ out.pValue = t.tailProbability ∧
      out.pValue ∈ Set.Icc (probability t t.a) 1 ∧
      (t.productsFit = true → 0 < t.b * t.c →
        out.statistic = (t.a * t.d : ℕ) / (t.b * t.c : ℕ)) ∧
      fisherExactChecked? t = (if t.productsFit then some (.ok out) else none) ∧
      (∃ x, execute .fisherExact (.contingency rows cols [[(t.a : ℝ), t.b], [(t.c : ℝ), t.d]])
        settings = .ok x ∧ x.output = out) ∧
      ∀ s ∈ [t.swapRows, t.swapCols, t.transposed],
        ∃ out' : TestOutput ℝ, fisherExact s = .ok out' ∧ out'.pValue = out.pValue ∧
          fisherExactChecked? s = if t.productsFit then some (.ok out') else none := by
  have hok := fisherExact_eq h
  have hmargins := t.row1_add_row2
  refine ⟨fun x => t.mem_firstCells_iff_nonneg, fun x hx => ?_, t.col1_le_total, fun x hx => ?_,
    fun s => Fourfold.sameMargins_iff, t.a_mem_firstCells, sum_probability t, fun factor hfactor => ?_,
    tailProbability_eq_tailWithin t, Fourfold.productsFit_of_total_lt, _, hok, rfl,
    tailProbability_mem_Icc t, fun hproducts _ => Fourfold.oddsRatio_eq hproducts,
    by rw [fisherExactChecked?_eq, hok], execute_fisherExact hok rows cols settings, ?_⟩
  · obtain ⟨hrow1, hcol1, hrow2⟩ := t.mem_firstCells_iff_le.1 hx
    exact ⟨hrow1, hcol1, hrow2, by omega⟩
  · have hrow1 := (t.mem_firstCells_iff_le.1 hx).1
    have hcol1 := t.col1_le_total
    simp only [List.forall_mem_cons, List.not_mem_nil, false_imp_iff, implies_true, and_true]
    refine ⟨?_, ?_, ?_, ?_⟩ <;> exact Word.fits_of_le (by omega) hfits
  · simp only [List.forall_mem_cons, List.not_mem_nil, false_imp_iff, implies_true, and_true]
    exact ⟨tailWithin_mem_Icc hfactor t, tailWithin_swapRows t factor, tailWithin_swapCols t factor,
      tailWithin_transposed t factor⟩
  · simp only [List.forall_mem_cons, List.not_mem_nil, false_imp_iff, implies_true, and_true]
    exact ⟨exists_fisherExact_of_alike (answer_fisherExact_swapRows t) t.productsFit_swapRows hok,
      exists_fisherExact_of_alike (answer_fisherExact_swapCols t) t.productsFit_swapCols hok,
      exists_fisherExact_of_alike (answer_fisherExact_transposed t) t.productsFit_transposed hok⟩

omit [Tails ℝ] in
/-- Six observations whose first column cannot lie in the second row alone. -/
theorem fisherExact_sums_same_margins_of_six :
    let _tails := densityTails
    let t : Fourfold := ⟨3, 0, 1, 2⟩
    0 < t.total ∧ Word.fits t.total = true ∧ t.firstCells = [1, 2, 3] ∧
      t.firstCells.map (probability t) = [1 / 5, 3 / 5, 1 / 5] ∧
      (t.firstCells.map (probability t)).sum = 1 ∧
      ∃ out : TestOutput ℝ, fisherExact t = .ok out ∧ out.pValue = 2 / 5 ∧
        fisherExactChecked? t = some (.ok out) ∧
        ∃ out' : TestOutput ℝ, fisherExact ⟨3, 1, 0, 2⟩ = .ok out' ∧ out'.pValue = 2 / 5 := by
  intro _tails t
  have hpos : 0 < t.total := by decide
  have hfits : Word.fits t.total = true := by decide
  have hcells : t.firstCells = [1, 2, 3] := by decide
  have hmem : ∀ x ∈ [1, 2, 3], x ∈ t.firstCells := hcells ▸ fun x hx => hx
  have hprobability : ∀ x ∈ [1, 2, 3], probability t x =
      ((3 : ℕ).choose x * (3 : ℕ).choose (4 - x) : ℕ) / (6 : ℕ).choose 4 :=
    fun x hx => probability_eq (hmem x hx)
  have hone : probability t 1 = 1 / 5 := by
    rw [hprobability 1 (by simp)]
    norm_num [Nat.choose]
  have htwo : probability t 2 = 3 / 5 := by
    rw [hprobability 2 (by simp)]
    norm_num [Nat.choose]
  have hthree : probability t 3 = 1 / 5 := by
    rw [hprobability 3 (by simp)]
    norm_num [Nat.choose]
  obtain ⟨-, -, -, -, -, -, hsum, -, htail, hproducts, out, hout, hp, -, -, hchecked, -, hsymmetric⟩ :=
    fisherExact_sums_same_margins hpos hfits ["a", "b"] ["c", "d"] .standard
  -- the tolerance does not reach the table that is three times as likely
  have hfactor : Real.exp (1 / 10000000) < 3 :=
    (Real.exp_lt_exp.2 (by norm_num)).trans Real.exp_one_lt_three
  have hfactor' : 1 ≤ Real.exp (1 / 10000000) := Real.one_le_exp (by norm_num)
  have hvalue : tailWithin (Real.exp (1 / 10000000)) t = 2 / 5 := by
    rw [tailWithin, hcells, show t.a = 3 from rfl]
    simp only [List.map_cons, List.map_nil, hone, htwo, hthree]
    rw [if_pos (by linarith), if_neg (by linarith)]
    norm_num
  refine ⟨hpos, hfits, hcells,
    by rw [hcells]; simp only [List.map_cons, List.map_nil, hone, htwo, hthree],
    hsum, out, hout, by rw [hp, htail, hvalue], by rw [hchecked, if_pos (hproducts (by decide))], ?_⟩
  obtain ⟨out', hout', hp', -⟩ := hsymmetric t.transposed (by simp)
  exact ⟨out', hout', by rw [hp', hp, htail, hvalue]⟩

end ExactTest

/-! ### The chi-square test -/

section ChiSquare

variable [Tails ℝ] {table : List (List ℝ)} {out : TestOutput ℝ}

theorem reports_chiSquare (h : chiSquareIndependence table = .ok out) (rows cols : List String)
    (settings : Settings ℝ) :
    Reports (execute .chiSquare (.contingency rows cols table) settings) out "cramers_v"
      (cramersV out.statistic table.flatten.sum table.length (columnCount table)) := by
  refine reports_of_runTest fun _ _ _ => ?_
  rw [runTest, h, ok_bind, pure_eq_ok, sum_eq]

/-- **The chi-square test reports an association from zero to one.**  The expected counts have the
margins of the table, a correction for continuity makes the statistic smaller, and neither the order
of rows and columns nor exchanging them for each other changes the answer. -/
theorem chiSquareIndependence_reports_association (h : FrequencyTable table)
    (rowLabels colLabels : List String) (settings : Settings ℝ) :
    let rows := table.length
    let cols := columnCount table
    let n := table.flatten.sum
    let expected := expectedCounts table
    expected.map List.sum = table.map List.sum ∧ columnTotals expected = columnTotals table ∧
      chiSquareStatistic true table expected ≤ chiSquareStatistic false table expected ∧
      ∃ out, chiSquareIndependence table = .ok out ∧
        out.statistic = chiSquareStatistic (rows = 2 ∧ cols = 2) table expected ∧
        out.df = some (((rows - 1) * (cols - 1) : ℕ) : ℝ) ∧
        out.statistic ∈ Set.Icc 0 (n * ((min rows cols : ℕ) - 1)) ∧
        cramersV out.statistic n rows cols ∈ Set.Icc 0 1 ∧
        Reports (execute .chiSquare (.contingency rowLabels colLabels table) settings) out "cramers_v"
          (cramersV out.statistic n rows cols) ∧
        chiSquareIndependence (transposedTable table) = .ok out ∧
        ∀ (rows' : List (List ℝ)) (places : List ℕ), rows'.Perm table →
          places.Perm (List.range cols) →
          chiSquareIndependence (rows'.map fun row => places.map fun j => row.getD j 0) = .ok out := by
  intro rows cols n expected
  have hok := h.chiSquareIndependence_eq
  have hrange := h.statistic_mem_Icc (table.length = 2 ∧ columnCount table = 2)
  have hk : 1 ≤ min rows cols := one_le_two.trans (le_min h.two_le_rows h.two_le_cols)
  exact ⟨h.sums_expectedCounts, h.columnTotals_expectedCounts, h.chiSquareStatistic_corrected_le, _,
    hok, rfl, rfl, hrange, cramersV_mem_Icc hk hrange,
    reports_chiSquare hok rowLabels colLabels settings,
    h.chiSquareIndependence_transposedTable.trans hok,
    fun _ _ hrows hplaces => (h.chiSquareIndependence_reorder hrows hplaces).trans hok⟩

omit [Tails ℝ] in
/-- Sixteen observations whose statistic is a quarter of what it can be. -/
theorem chiSquareIndependence_reports_association_of_sixteen :
    let _tails := densityTails
    let table : List (List ℝ) := [[3, 3, 2], [1, 1, 6]]
    FrequencyTable table ∧ expectedCounts table = [[2, 2, 4], [2, 2, 4]] ∧
      ∃ out, chiSquareIndependence table = .ok out ∧ out.statistic = 4 ∧ out.df = some 2 ∧
        out.statistic ∈ Set.Icc 0 16 ∧
        Reports (execute .chiSquare (.contingency ["a", "b"] ["c", "d", "e"] table) .standard) out
          "cramers_v" (1 / 2) ∧
        chiSquareIndependence [[3, 1], [3, 1], [2, 6]] = .ok out ∧
        chiSquareIndependence [[6, 1, 1], [2, 3, 3]] = .ok out := by
  intro _tails table
  have hcount : columnCount table = 3 := rfl
  have htotals : columnTotals table = [4, 4, 8] := by
    simp only [columnTotals, hcount, sum_eq, List.range_succ]
    norm_num [table]
  have h : FrequencyTable table := by
    refine ⟨le_refl 2, Nat.le_succ 2, by simp [table, hcount], ?_, ?_, ?_⟩
    · norm_num [table]
    · norm_num [table]
    · norm_num [htotals]
  have htotal : table.flatten.sum = 16 := by norm_num [table]
  have hexpected : expectedCounts table = [[2, 2, 4], [2, 2, 4]] := by
    rw [expectedCounts, htotals, sum_eq, htotal, numeral_zero, if_neg (by norm_num)]
    norm_num [table]
  obtain ⟨-, -, -, out, hout, hstatistic, hdf, hrange, -, hreports, htransposed, hreordered⟩ :=
    chiSquareIndependence_reports_association h ["a", "b"] ["c", "d", "e"] .standard
  have hfour : out.statistic = 4 := by
    rw [hstatistic, hexpected, hcount]
    rw [chiSquareStatistic, numeral_zero]
    norm_num [table, countDistance]
  have hcoefficient : cramersV out.statistic 16 2 3 = 1 / 2 := by
    rw [hfour, cramersV, numeral_zero, if_neg (by norm_num)]
    norm_num
  rw [htotal, hcount] at hrange hreports
  rw [show table.length = 2 from rfl, hcoefficient] at hreports
  refine ⟨h, hexpected, out, hout, hfour, ?_, ?_, hreports, htransposed, ?_⟩
  · rw [hdf, hcount]
    norm_num [table]
  · norm_num [table] at hrange
    exact hrange
  · exact hreordered [[1, 1, 6], [3, 3, 2]] [2, 0, 1] (List.Perm.swap _ _ _) (by decide)

end ChiSquare

end StudyAnalysis.Exact
