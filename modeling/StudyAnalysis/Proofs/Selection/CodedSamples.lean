/-
**The statistics of coded observations.**

The resampling fallback does not draw from groups or from tables, but from two lists: the numbers of
the groups and the values of all observations, or the numbers of the rows and of the columns that they
are counted in.  The statistic of a resample is computed from such lists, by rebuilding the groups or
recounting the table from the codes that occur.  On the lists of the observed samples themselves this
gives back the groups and the table, and so the statistics agree with those of the tests: the sum of
squares between groups with that of the analysis of variance, and the chi-square statistic with that
of the chi-square test, up to the correction that only tables of two rows and two columns have.

Main definitions:

* `StudyAnalysis.Exact.membersOf` — the values with one code.

Main results:

* `StudyAnalysis.Exact.occurring_eq_range` — codes that occur without a gap;
* `StudyAnalysis.Exact.codedBetween_eq` — the sum of squares between coded groups as a sum over codes;
* `StudyAnalysis.Exact.membersOf_codedValues` — **the groups are rebuilt from their codes**;
* `StudyAnalysis.Exact.sumsOfSquares_decompose` — **sums of squares add up, and the fallback uses the
  one between groups**;
* `StudyAnalysis.Exact.countP_expandTable` — **a table is recounted from its codes**;
* `StudyAnalysis.Exact.codedChiSquare_eq` — the statistic of pairs of codes as a sum over codes;
* `StudyAnalysis.Exact.codedChiSquare_expandTable` — **on a table it is that of the test**;
* `StudyAnalysis.Exact.codedChiSquare_agrees` — **the fallback uses the statistic of the chi-square
  test**.
-/

import StudyAnalysis.Proofs.Selection.Reordering
import StudyAnalysis.Proofs.Statistics.ChiSquare
import StudyAnalysis.Proofs.Statistics.CountTables
import StudyAnalysis.Proofs.Statistics.SumsOfSquares

set_option autoImplicit false
set_option relaxedAutoImplicit false

namespace StudyAnalysis.Exact

open Numeric Fallible

/-! ### Codes -/

section Codes

variable {codes : List ℕ} {n : ℕ}

/-- The bound that is computed for some codes is the least one. -/
theorem codeBound_le_iff (bound : ℕ) :
    codes.foldl (fun bound code => max bound (code + 1)) bound ≤ n ↔
      bound ≤ n ∧ ∀ code ∈ codes, code < n := by
  induction codes generalizing bound with
  | nil => simp
  | cons code codes ih =>
      rw [List.foldl_cons, ih, max_le_iff, List.forall_mem_cons, and_assoc]
      rfl

/-- Beyond the range of some codes none of them occurs. -/
theorem exists_range_eq_codeRange_append (h : ∀ code ∈ codes, code < n) :
    ∃ rest, List.range n = codeRange codes ++ rest ∧ ∀ code ∈ rest, code ∉ codes := by
  obtain ⟨k, rfl⟩ := Nat.exists_eq_add_of_le ((codeBound_le_iff 0).2 ⟨Nat.zero_le n, h⟩)
  refine ⟨_, List.range_add, fun code hcode hmem => ?_⟩
  obtain ⟨i, -, rfl⟩ := List.mem_map.1 hcode
  have hlt := ((codeBound_le_iff 0).1 (le_refl _)).2 _ hmem
  omega

theorem mem_occurring_iff {code : ℕ} : code ∈ occurring codes ↔ code ∈ codes := by
  rw [occurring, List.mem_filter, List.contains_iff_mem, and_iff_right_iff_imp]
  intro h
  exact List.mem_range.2 (((codeBound_le_iff 0).1 (le_refl _)).2 code h)

/-- A code of some points occurs exactly if it is counted. -/
theorem countP_code_pos_iff {β : Type} {points : List β} {code : β → ℕ} {c : ℕ} :
    0 < (points.countP fun p => code p == c) ↔ c ∈ occurring (points.map code) := by
  simp only [mem_occurring_iff, List.countP_pos_iff, List.mem_map, beq_iff_eq]

/-- **Codes that occur without a gap** are those below their number. -/
theorem occurring_eq_range (h : ∀ code, code ∈ codes ↔ code < n) : occurring codes = List.range n := by
  obtain ⟨rest, hrange, hrest⟩ := exists_range_eq_codeRange_append fun code => (h code).1
  obtain rfl : rest = [] := List.eq_nil_iff_forall_not_mem.2 fun code hcode => by
    have hmem : code ∈ List.range n := hrange ▸ List.mem_append_right _ hcode
    exact hrest code hcode ((h code).2 (List.mem_range.1 hmem))
  rw [List.append_nil] at hrange
  rw [occurring, ← hrange, List.filter_eq_self]
  exact fun code hcode => List.contains_iff_mem.2 ((h code).2 (List.mem_range.1 hcode))

/-- The same for the codes of some points, of which each code has at least one. -/
theorem occurring_map_eq_range {β : Type} {points : List β} {code : β → ℕ}
    (h : ∀ p ∈ points, code p < n) (hpos : ∀ c < n, 0 < points.countP fun p => code p == c) :
    occurring (points.map code) = List.range n := by
  refine occurring_eq_range fun c => ⟨fun hmem => ?_, fun hc => ?_⟩
  · obtain ⟨p, hp, rfl⟩ := List.mem_map.1 hmem
    exact h p hp
  · exact mem_occurring_iff.1 (countP_code_pos_iff.1 (hpos c hc))

/-- A sum over the range of some codes, where codes that do not occur contribute nothing. -/
theorem sum_codeRange {g : ℕ → ℝ} (h : ∀ code ∈ codes, code < n)
    (hzero : ∀ code, code ∉ codes → g code = 0) :
    ((codeRange codes).map g).sum = ((List.range n).map g).sum := by
  obtain ⟨rest, hrange, hrest⟩ := exists_range_eq_codeRange_append h
  have hnothing : (rest.map g).sum = 0 := by
    refine List.sum_eq_zero fun x hx => ?_
    obtain ⟨code, hcode, rfl⟩ := List.mem_map.1 hx
    exact hzero code (hrest code hcode)
  rw [hrange, List.map_append, List.sum_append, hnothing, add_zero]

end Codes

theorem zip_map_fst_map_snd {β γ : Type} (points : List (β × γ)) :
    (points.map (·.1)).zip (points.map (·.2)) = points :=
  (List.zip_of_prod rfl rfl).symm

/-! ### Coded groups -/

section Groups

/-- The values with one code. -/
def membersOf (points : List (ℕ × ℝ)) (code : ℕ) : List ℝ :=
  (points.filter fun p => p.1 == code).map (·.2)

theorem membersOf_append (points points' : List (ℕ × ℝ)) (code : ℕ) :
    membersOf (points ++ points') code = membersOf points code ++ membersOf points' code := by
  rw [membersOf, List.filter_append, List.map_append]
  rfl

theorem membersOf_eq_nil {points : List (ℕ × ℝ)} {code : ℕ} (h : code ∉ points.map (·.1)) :
    membersOf points code = [] := by
  rw [membersOf, List.map_eq_nil_iff, List.filter_eq_nil_iff]
  intro p hp heq
  exact h (List.mem_map.2 ⟨p, hp, beq_iff_eq.1 heq⟩)

theorem betweenTerm_nil (centre : ℝ) : betweenTerm centre [] = 0 := by
  rw [betweenTerm, count_eq, List.length_nil, Nat.cast_zero, zero_mul]

/-- Groups without values are no groups, but they would contribute nothing. -/
theorem sum_betweenTerm_filter (centre : ℝ) (groups : List (List ℝ)) :
    ((groups.filter fun g => !g.isEmpty).map (betweenTerm centre)).sum =
      (groups.map (betweenTerm centre)).sum := by
  induction groups with
  | nil => rfl
  | cons g groups ih =>
      cases g with
      | nil =>
          rw [List.filter_cons_of_neg (by simp), ih, List.map_cons, List.sum_cons, betweenTerm_nil,
            zero_add]
      | cons x g =>
          rw [List.filter_cons_of_pos (by simp), List.map_cons, List.map_cons, List.sum_cons,
            List.sum_cons, ih]

/-- **The sum of squares between coded groups**, as a sum over codes. -/
theorem codedBetween_eq (points : List (ℕ × ℝ)) :
    codedBetween (points.map (·.1)) (points.map (·.2)) =
      ((codeRange (points.map (·.1))).map fun code =>
        betweenTerm (mean (points.map (·.2))) (membersOf points code)).sum := by
  rw [codedBetween, zip_map_fst_map_snd, sum_eq]
  exact (sum_betweenTerm_filter _ _).trans (congrArg List.sum (List.map_map ..))

theorem codedValues_append (groups : List (List ℝ)) (g : List ℝ) :
    codedValues (groups ++ [g]) = codedValues groups ++ g.map (groups.length, ·) := by
  rw [codedValues, List.zipIdx_append, List.flatMap_append, codedValues]
  simp

theorem membersOf_map_self (code : ℕ) (g : List ℝ) : membersOf (g.map (code, ·)) code = g := by
  rw [membersOf, List.filter_eq_self.2, List.map_map]
  · exact List.map_id g
  · intro p hp
    obtain ⟨x, -, rfl⟩ := List.mem_map.1 hp
    exact beq_self_eq_true code

/-- **The groups are rebuilt from their codes.** -/
theorem membersOf_codedValues (groups : List (List ℝ)) (code : ℕ) :
    membersOf (codedValues groups) code = groups.getD code [] := by
  induction groups using List.reverseRecOn with
  | nil => rfl
  | append_singleton groups g ih =>
      rw [codedValues_append, membersOf_append, ih]
      rcases lt_trichotomy code groups.length with hlt | rfl | hgt
      · rw [List.getD_append _ _ _ _ hlt, membersOf_eq_nil, List.append_nil]
        simp only [List.map_map, List.mem_map, Function.comp_apply]
        exact fun ⟨_, _, heq⟩ => hlt.ne' heq
      · rw [membersOf_map_self, List.getD_eq_default _ _ (le_refl _), List.nil_append,
          List.getD_append_right _ _ _ _ (le_refl _), Nat.sub_self]
        rfl
      · rw [List.getD_eq_default _ _ hgt.le, List.getD_eq_default _ _ (by simpa using hgt),
          membersOf_eq_nil, List.append_nil]
        simp only [List.map_map, List.mem_map, Function.comp_apply]
        exact fun ⟨_, _, heq⟩ => hgt.ne heq

theorem map_snd_codedValues (groups : List (List ℝ)) :
    (codedValues groups).map (·.2) = groups.flatten := by
  induction groups using List.reverseRecOn with
  | nil => rfl
  | append_singleton groups g ih =>
      rw [codedValues_append, List.map_append, ih, List.map_map, List.flatten_append]
      simp

theorem lt_of_mem_codedValues {groups : List (List ℝ)} {code : ℕ}
    (h : code ∈ (codedValues groups).map (·.1)) : code < groups.length := by
  obtain ⟨p, hp, rfl⟩ := List.mem_map.1 h
  have hmem : p.2 ∈ membersOf (codedValues groups) p.1 :=
    List.mem_map_of_mem (List.mem_filter.2 ⟨hp, beq_self_eq_true p.1⟩)
  by_contra hge
  rw [membersOf_codedValues, List.getD_eq_default _ _ (not_lt.1 hge)] at hmem
  cases hmem

/-- **The fallback on groups measures the sum of squares between them.** -/
theorem codedBetween_codedValues (groups : List (List ℝ)) :
    codedBetween ((codedValues groups).map (·.1)) ((codedValues groups).map (·.2)) =
      (sumsOfSquares groups).1 := by
  have hzero : ∀ code, code ∉ (codedValues groups).map (·.1) →
      betweenTerm (mean groups.flatten) (membersOf (codedValues groups) code) = 0 := by
    intro code hcode
    rw [membersOf_eq_nil hcode, betweenTerm_nil]
  rw [codedBetween_eq, map_snd_codedValues,
    sum_codeRange (fun code hcode => lt_of_mem_codedValues hcode) hzero, sumsOfSquares_fst]
  simp only [membersOf_codedValues]
  calc ((List.range groups.length).map fun code =>
        betweenTerm (mean groups.flatten) (groups.getD code [])).sum
      = (((List.range groups.length).map fun code => groups.getD code []).map
          (betweenTerm (mean groups.flatten))).sum := by
        rw [List.map_map]
        rfl
    _ = (groups.map (betweenTerm (mean groups.flatten))).sum := by
        rw [map_getD_range groups rfl]

/-- **Sums of squares add up, and the fallback uses the one between groups.**  Empty groups are no
exception: they have no part in any of the sums, and no code. -/
theorem sumsOfSquares_decompose (groups : List (List ℝ)) :
    (sumsOfSquares groups).1 + (sumsOfSquares groups).2 =
        sum (squaredDeviations (grandMean groups) groups.flatten) ∧
      0 ≤ (sumsOfSquares groups).1 ∧ 0 ≤ (sumsOfSquares groups).2 ∧
      etaSquared groups ∈ Set.Icc 0 1 ∧
      codedBetween ((codedValues groups).map (·.1)) ((codedValues groups).map (·.2)) =
        (sumsOfSquares groups).1 := by
  refine ⟨?_, sumsOfSquares_fst_nonneg groups, sumsOfSquares_snd_nonneg groups,
    etaSquared_mem_Icc groups, codedBetween_codedValues groups⟩
  rw [grandMean_eq, squaredDeviations_eq]
  exact sumsOfSquares_add groups

end Groups

/-! ### Coded tables -/

section Tables

variable {f : ℕ → ℕ → ℕ} {m k : ℕ}

theorem zipIdx_map_range {β : Type} (g : ℕ → β) (n : ℕ) :
    ((List.range n).map g).zipIdx = (List.range n).map fun i => (g i, i) :=
  List.ext_getElem (by simp) (by simp)

theorem expandTable_countTable :
    expandTable (countTable ℝ f (List.range m) (List.range k)) =
      (List.range m).flatMap fun i => (List.range k).flatMap fun j => List.replicate (f i j) (i, j) := by
  simp only [expandTable, countTable, tabulate, zipIdx_map_range, List.flatMap_map, ofNat_eq,
    toNat_natCast]

theorem lt_of_mem_expandTable {p : ℕ × ℕ}
    (h : p ∈ expandTable (countTable ℝ f (List.range m) (List.range k))) : p.1 < m ∧ p.2 < k := by
  rw [expandTable_countTable] at h
  obtain ⟨i, hi, h⟩ := List.mem_flatMap.1 h
  obtain ⟨j, hj, h⟩ := List.mem_flatMap.1 h
  obtain rfl := List.eq_of_mem_replicate h
  exact ⟨List.mem_range.1 hi, List.mem_range.1 hj⟩

/-- **A table is recounted from its codes.** -/
theorem countP_expandTable (p : ℕ × ℕ → Bool) :
    (expandTable (countTable ℝ f (List.range m) (List.range k))).countP p =
      tableTotal (fun i j => if p (i, j) then f i j else 0) (List.range m) (List.range k) := by
  rw [expandTable_countTable]
  simp only [List.countP_flatMap, List.countP_replicate, Function.comp_def]
  rfl

theorem sum_map_range_single {g : ℕ → ℕ} {n i : ℕ} (hi : i < n) (h : ∀ i', i' ≠ i → g i' = 0) :
    ((List.range n).map g).sum = g i := by
  rw [List.sum_map_eq_nsmul_single i g fun i' hne _ => h i' hne,
    List.count_eq_one_of_mem List.nodup_range (List.mem_range.2 hi), one_nsmul]

theorem countP_fst_expandTable {r : ℕ} (hr : r < m) :
    (expandTable (countTable ℝ f (List.range m) (List.range k))).countP (·.1 == r) =
      rowTotal f (List.range k) r := by
  rw [countP_expandTable, tableTotal, sum_map_range_single hr]
  · simp [rowTotal]
  · intro i hne
    simp [rowTotal, hne]

theorem countP_snd_expandTable {c : ℕ} (hc : c < k) :
    (expandTable (countTable ℝ f (List.range m) (List.range k))).countP (·.2 == c) =
      columnTotal f (List.range m) c := by
  rw [countP_expandTable]
  refine congrArg List.sum (List.map_congr_left fun i _ => ?_)
  rw [rowTotal, sum_map_range_single hc]
  · simp
  · intro j hne
    simp [hne]

theorem count_expandTable {r c : ℕ} (hr : r < m) (hc : c < k) :
    (expandTable (countTable ℝ f (List.range m) (List.range k))).count (r, c) = f r c := by
  rw [List.count, countP_expandTable, tableTotal, sum_map_range_single hr, rowTotal,
    sum_map_range_single hc]
  · simp
  · intro j hne
    simp [hne]
  · intro i hne
    simp [rowTotal, hne]

theorem length_expandTable_countTable :
    (expandTable (countTable ℝ f (List.range m) (List.range k))).length =
      tableTotal f (List.range m) (List.range k) := by
  rw [← List.countP_true, countP_expandTable]
  rfl

/-- **The statistic of pairs of codes** as a sum over codes. -/
theorem codedChiSquare_eq (points : List (ℕ × ℕ)) :
    codedChiSquare (points.map (·.1)) (points.map (·.2)) =
      tableSum (fun r c =>
        let expected : ℝ := points.countP (·.1 == r) * points.countP (·.2 == c) / points.length
        square (points.count (r, c) - expected) / expected)
        (occurring (points.map (·.1))) (occurring (points.map (·.2))) := by
  rw [codedChiSquare, zip_map_fst_map_snd]
  simp only [foldl_add_eq, numeral_zero, zero_add, count_eq, List.length_map]
  rfl

variable (hmargins : NoEmptyMargin f (List.range m) (List.range k))

include hmargins

theorem occurring_fst_expandTable :
    occurring ((expandTable (countTable ℝ f (List.range m) (List.range k))).map (·.1)) =
      List.range m := by
  refine occurring_map_eq_range (fun p hp => (lt_of_mem_expandTable hp).1) fun r hr => ?_
  rw [countP_fst_expandTable hr]
  exact hmargins.rowTotal_pos r (List.mem_range.2 hr)

theorem occurring_snd_expandTable :
    occurring ((expandTable (countTable ℝ f (List.range m) (List.range k))).map (·.2)) =
      List.range k := by
  refine occurring_map_eq_range (fun p hp => (lt_of_mem_expandTable hp).2) fun c hc => ?_
  rw [countP_snd_expandTable hc]
  exact hmargins.columnTotal_pos c (List.mem_range.2 hc)

/-- **The fallback on a table measures the statistic of the test**, without a correction. -/
theorem codedChiSquare_expandTable :
    let table := countTable ℝ f (List.range m) (List.range k)
    codedChiSquare ((expandTable table).map (·.1)) ((expandTable table).map (·.2)) =
      chiSquareStatistic false table (expectedCounts table) := by
  intro table
  have hexpected : expectedCounts table = _ :=
    expectedCounts_countTable (Exact.addsCounts _) hmargins (le_refl _)
  rw [codedChiSquare_eq, occurring_fst_expandTable hmargins, occurring_snd_expandTable hmargins,
    hexpected]
  refine .trans (tableSum_congr fun r hr c hc => ?_) ((chiSquareStatistic_tabulate _ _ _ _ _).trans
    (sum_flatten_cells _ _ _)).symm
  rw [countP_fst_expandTable (List.mem_range.1 hr), countP_snd_expandTable (List.mem_range.1 hc),
    count_expandTable (List.mem_range.1 hr) (List.mem_range.1 hc), length_expandTable_countTable,
    countDistance_uncorrected, abs_mul_abs_self]
  rfl

end Tables

/-! ### Tables as lists of rows of counts -/

section Lists

theorem cast_sum_map {β : Type} (g : β → ℕ) (xs : List β) :
    (((xs.map g).sum : ℕ) : ℝ) = (xs.map fun x => (g x : ℝ)).sum := by
  rw [Nat.cast_list_sum, List.map_map]
  rfl

theorem FrequencyTable.noEmptyMargin {ι κ : Type} {f : ι → κ → ℕ} {rows : List ι} {cols : List κ}
    (h : FrequencyTable (countTable ℝ f rows cols)) : NoEmptyMargin f rows cols where
  rowTotal_pos row hrow := by
    have hpos : 0 < (cols.map fun col => (f row col : ℝ)).sum :=
      h.row_pos _ (List.mem_map_of_mem hrow)
    rw [← cast_sum_map] at hpos
    exact Nat.cast_pos.1 hpos
  columnTotal_pos col hcol := by
    have hne : rows ≠ [] := by
      rintro rfl
      exact absurd h.two_le_rows (Nat.not_succ_le_zero 1)
    have htotals := columnTotals_tabulate (fun row col => (f row col : ℝ)) hne cols
    have hpos := h.column_pos _ (htotals ▸ List.mem_map_of_mem hcol)
    rw [sum_eq, ← cast_sum_map] at hpos
    exact Nat.cast_pos.1 hpos

variable {counts : List (List ℕ)}

theorem tabulate_range_getD {k : ℕ} (h : ∀ row ∈ counts, row.length = k) :
    tabulate (fun i j => (counts.getD i []).getD j 0) (List.range counts.length) (List.range k) =
      counts :=
  calc tabulate (fun i j => (counts.getD i []).getD j 0) (List.range counts.length) (List.range k)
      = tabulate (fun (row : List ℕ) j => row.getD j 0)
          ((List.range counts.length).map fun i => counts.getD i []) (List.range k) := by
        rw [tabulate, tabulate, List.map_map]
        rfl
    _ = counts := by rw [map_getD_range counts rfl, tabulate_getD h]

/-- A table of counts whose rows are equally long. -/
theorem map_natCast_eq_countTable {k : ℕ} (h : ∀ row ∈ counts, row.length = k) :
    counts.map (List.map (Nat.cast : ℕ → ℝ)) =
      countTable ℝ (fun i j => (counts.getD i []).getD j 0) (List.range counts.length)
        (List.range k) := by
  rw [countTable_eq_map, tabulate_range_getD h]
  rfl

/-- **A table is expanded to one pair of codes for each observation.** -/
theorem length_expandTable_natCast (counts : List (List ℕ)) :
    (expandTable (counts.map (List.map (Nat.cast : ℕ → ℝ)))).length = counts.flatten.sum := by
  rw [length_expandTable, ← List.map_flatten, List.map_map]
  refine congrArg List.sum ((List.map_congr_left fun n _ => ?_).trans (List.map_id _))
  exact toNat_natCast n

/-- **Each pair of codes occurs as often as the table counts it.** -/
theorem count_expandTable_natCast {k : ℕ} (h : ∀ row ∈ counts, row.length = k) (i j : ℕ) :
    (expandTable (counts.map (List.map (Nat.cast : ℕ → ℝ)))).count (i, j) =
      (counts.getD i []).getD j 0 := by
  rw [map_natCast_eq_countTable h]
  by_cases hin : i < counts.length ∧ j < k
  · exact count_expandTable hin.1 hin.2
  rw [List.count_eq_zero_of_not_mem fun hmem => hin (lt_of_mem_expandTable hmem)]
  by_cases hi : i < counts.length
  · have hrow := h _ (List.getElem_mem hi)
    rw [List.getD_eq_getElem _ _ hi, List.getD_eq_default]
    rw [hrow]
    exact not_lt.1 fun hj => hin ⟨hi, hj⟩
  · rw [List.getD_eq_default _ _ (not_lt.1 hi)]
    rfl

variable [Tails ℝ]

/-- **The fallback uses the statistic of the chi-square test.**  A table of counts is expanded to one
pair of codes for each observation, and recounting the codes gives the table back.  Only the test
corrects a table of two rows and two columns, which makes its statistic smaller. -/
theorem codedChiSquare_agrees (h : FrequencyTable (counts.map (List.map (Nat.cast : ℕ → ℝ)))) :
    let table : List (List ℝ) := counts.map (List.map Nat.cast)
    let rows := (expandTable table).map (·.1)
    let cols := (expandTable table).map (·.2)
    rows.length = counts.flatten.sum ∧ cols.length = counts.flatten.sum ∧
      (∀ i j, (rows.zip cols).count (i, j) = (counts.getD i []).getD j 0) ∧
      codedChiSquare rows cols = chiSquareStatistic false table (expectedCounts table) ∧
      ∃ out, chiSquareIndependence table = .ok out ∧
        (¬ (table.length = 2 ∧ columnCount table = 2) → codedChiSquare rows cols = out.statistic) ∧
        (table.length = 2 ∧ columnCount table = 2 → out.statistic ≤ codedChiSquare rows cols) := by
  intro table rows cols
  have hzip : rows.zip cols = expandTable table := zip_map_fst_map_snd _
  have hlength : ∀ row ∈ counts, row.length = columnCount table := fun row hrow =>
    (List.length_map _).symm.trans (h.rectangular _ (List.mem_map_of_mem hrow))
  have hagrees : codedChiSquare rows cols =
      chiSquareStatistic false table (expectedCounts table) := by
    have htable : table = _ := map_natCast_eq_countTable hlength
    have hcounts : FrequencyTable table := h
    rw [htable] at hcounts
    have hcoded := codedChiSquare_expandTable hcounts.noEmptyMargin
    rwa [← htable] at hcoded
  refine ⟨(List.length_map _).trans (length_expandTable_natCast counts),
    (List.length_map _).trans (length_expandTable_natCast counts),
    fun i j => hzip ▸ count_expandTable_natCast hlength i j, hagrees, _, h.chiSquareIndependence_eq,
    fun hlarger => ?_, fun hfourfold => ?_⟩
  · rw [hagrees, decide_eq_false hlarger]
    rfl
  · rw [hagrees, decide_eq_true hfourfold]
    exact h.chiSquareStatistic_corrected_le

omit [Tails ℝ] in
/-- Two rows and columns that go together: the correction costs three quarters of the statistic. -/
theorem codedChiSquare_agrees_of_four :
    let _tails := densityTails
    let table : List (List ℝ) := [[2, 0], [0, 2]]
    FrequencyTable table ∧ expandTable table = [(0, 0), (0, 0), (1, 1), (1, 1)] ∧
      codedChiSquare [0, 0, 1, 1] [0, 0, 1, 1] = (4 : ℝ) ∧
      ∃ out, chiSquareIndependence table = .ok out ∧ out.statistic = 1 := by
  intro _tails table
  have htable : ([[2, 0], [0, 2]] : List (List ℕ)).map (List.map Nat.cast) = table := by
    norm_num [table]
  have hcount : columnCount table = 2 := rfl
  have htotals : columnTotals table = [2, 2] := by
    simp only [columnTotals, hcount, sum_eq, List.range_succ]
    norm_num [table]
  have h : FrequencyTable table := by
    refine ⟨le_refl 2, le_refl 2, by simp [table, hcount], ?_, ?_, ?_⟩
    · norm_num [table]
    · norm_num [table]
    · norm_num [htotals]
  have hexpand : expandTable table = [(0, 0), (0, 0), (1, 1), (1, 1)] := by
    rw [← htable]
    simp only [expandTable, List.map_cons, List.map_nil, List.zipIdx_cons, List.zipIdx_nil,
      List.flatMap_cons, List.flatMap_nil, toNat_natCast]
    rfl
  have hexpected : expectedCounts table = [[1, 1], [1, 1]] := by
    have htotal : table.flatten.sum = 4 := by norm_num [table]
    rw [expectedCounts, htotals, sum_eq, htotal, numeral_zero, if_neg (by norm_num)]
    norm_num [table]
  have hcounts : FrequencyTable (([[2, 0], [0, 2]] : List (List ℕ)).map (List.map Nat.cast)) :=
    htable ▸ h
  obtain ⟨-, -, -, hcoded, out, hout, -, -⟩ := codedChiSquare_agrees hcounts
  rw [htable, hexpand, hexpected] at hcoded
  rw [htable] at hout
  refine ⟨h, hexpand, hcoded.trans ?_, out, hout, ?_⟩
  · rw [chiSquareStatistic, numeral_zero]
    norm_num [table, countDistance]
  · obtain rfl := Except.ok.inj (hout.symm.trans h.chiSquareIndependence_eq)
    show chiSquareStatistic _ table (expectedCounts table) = 1
    rw [hcount, hexpected, decide_eq_true ⟨rfl, rfl⟩, chiSquareStatistic, numeral_zero]
    norm_num [table, countDistance_corrected]

end Lists

end StudyAnalysis.Exact
