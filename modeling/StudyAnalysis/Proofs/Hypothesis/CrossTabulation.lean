/-
**Contingency tables are exact cross-tabulations.**

A contingency table is built from ranks: every row of the data at which both variables are bound
adds one to the cell of its two ranks, and the levels without observations are dropped afterwards.
Read by labels, the result is the cross-tabulation of the two variables: one row and one column for
every declared level that occurs, and in each cell the number of the rows that carry its two labels.

So no row and no column is empty.  Every expected count is positive, and the chi-square test of such
a table fails only if a variable has fewer than two levels left.

Main definitions:

* `StudyAnalysis.Dataset.levelsAt` — the declared levels of a variable that occur at some rows;
* `StudyAnalysis.Dataset.crossCount` — the number of the rows that carry two labels;
* `StudyAnalysis.Dataset.Labelled` — every row carries a declared label;
* `StudyAnalysis.Binding.sharedRows` — the rows at which two bindings have a cell.

Main results:

* `StudyAnalysis.occurringNames_eq_filter` — the labels of a table in declared order;
* `StudyAnalysis.Dataset.noEmptyMargin`, `StudyAnalysis.tableTotal_crossCount` — the totals of a
  cross-tabulation;
* `StudyAnalysis.alignedLabels_eq` — two variables meet at the rows that both have;
* `StudyAnalysis.contingencyProperties_eq_crossTable` — the computed table is the cross-tabulation;
* `StudyAnalysis.contingency_is_crossTabulation` — **contingency tables are exact
  cross-tabulations**.
-/

import StudyAnalysis.Proofs.Statistics.CountTables
import StudyAnalysis.Proofs.Hypothesis.GroupFibres
import StudyAnalysis.Proofs.Hypothesis.Relabelling

set_option autoImplicit false
set_option relaxedAutoImplicit false

namespace StudyAnalysis

open Fallible

variable {α : Type}

/-! ### Occurring levels -/

section Levels

variable {v : Variable} {labels : List String}

/-- The labels of a table stand in the order of their places. -/
theorem pairwise_occurringNames (hlabels : ∀ label ∈ labels, label ∈ v.labels) :
    (occurringNames v labels).Pairwise fun a b => v.labels.idxOf a < v.labels.idxOf b := by
  have hranks : (occurringNames v labels).map v.place =
      (occurringLabels v (labels.map v.place)).map (·.2) := by
    rw [occurringLabels_eq hlabels, List.map_map]
    rfl
  have hpairwise : ((occurringNames v labels).map v.place).Pairwise (· < ·) := by
    rw [hranks]
    exact (List.pairwise_lt_range' (s := 1)).sublist (map_snd_occurringLabels_sublist v _)
  exact (List.pairwise_map.1 hpairwise).imp fun h => Nat.lt_of_succ_lt_succ h

/-- **The labels of a table** are the declared levels that occur, in declared order. -/
theorem occurringNames_eq_filter (hlabels : ∀ label ∈ labels, label ∈ v.labels) :
    occurringNames v labels = v.labels.eraseDups.filter fun label => labels.contains label := by
  have hmem : ∀ label, label ∈ occurringNames v labels ↔
      label ∈ v.labels.eraseDups.filter fun label => labels.contains label := by
    intro label
    rw [mem_occurringNames hlabels, List.mem_filter, List.mem_eraseDups, List.contains_iff_mem]
    exact ⟨fun h => ⟨hlabels label h, h⟩, fun h => h.2⟩
  have hperm : (occurringNames v labels).Perm
      (v.labels.eraseDups.filter fun label => labels.contains label) :=
    (List.perm_ext_iff_of_nodup (nodup_occurringNames hlabels)
      ((nodup_eraseDups v.labels).filter _)).2 hmem
  -- both lists are in the order of the first places of their labels
  exact hperm.eq_of_pairwise (fun a b _ _ hab hba => absurd hba (Nat.lt_asymm hab))
    (pairwise_occurringNames hlabels) ((pairwise_idxOf_eraseDups v.labels).filter _)

end Levels

/-! ### Cross-tabulations of a dataset -/

namespace Dataset

/-- The declared levels of a variable that occur at some rows, in declared order. -/
def levelsAt (d : Dataset α) (v : Variable) (rows : List Nat) : List String :=
  v.labels.eraseDups.filter fun label => rows.any fun row => d.labelAt v.name row == some label

/-- The number of those of some rows that carry two labels. -/
def crossCount (d : Dataset α) (rows : List Nat) (v w : Variable) (a b : String) : Nat :=
  rows.countP fun row => d.labelAt v.name row == some a && d.labelAt w.name row == some b

/-- Every one of some rows carries a declared label of a variable. -/
def Labelled (d : Dataset α) (rows : List Nat) (v : Variable) : Prop :=
  ∀ row ∈ rows, ∃ label ∈ v.labels, d.labelAt v.name row = some label

variable {d : Dataset α} {rows : List Nat} {v w : Variable} {label : String}

theorem mem_levelsAt : label ∈ d.levelsAt v rows ↔
    label ∈ v.labels ∧ ∃ row ∈ rows, d.labelAt v.name row = some label := by
  simp only [levelsAt, List.mem_filter, List.mem_eraseDups, List.any_eq_true, beq_iff_eq]

theorem nodup_levelsAt : (d.levelsAt v rows).Nodup :=
  (nodup_eraseDups v.labels).filter _

theorem Labelled.mem_levelsAt (h : d.Labelled rows v) {row : Nat} (hrow : row ∈ rows)
    (hlabel : d.labelAt v.name row = some label) : label ∈ d.levelsAt v rows := by
  obtain ⟨label', hmem, hlabel'⟩ := h row hrow
  obtain rfl := Option.some.inj (hlabel.symm.trans hlabel')
  exact Dataset.mem_levelsAt.2 ⟨hmem, row, hrow, hlabel⟩

theorem Labelled.isSome_labelAt (h : d.Labelled rows v) :
    ∀ row ∈ rows, (d.labelAt v.name row).isSome = true := by
  intro row hrow
  obtain ⟨label, -, hlabel⟩ := h row hrow
  rw [hlabel]
  rfl

/-- If every row is labelled, there are levels exactly if there are rows. -/
theorem Labelled.levelsAt_eq_nil_iff (h : d.Labelled rows v) :
    d.levelsAt v rows = [] ↔ rows = [] := by
  constructor
  · intro hnone
    refine List.eq_nil_iff_forall_not_mem.2 fun row hrow => ?_
    obtain ⟨label, -, hlabel⟩ := h row hrow
    have hmem := h.mem_levelsAt hrow hlabel
    rw [hnone] at hmem
    cases hmem
  · rintro rfl
    exact List.eq_nil_iff_forall_not_mem.2 fun label hmem => by
      obtain ⟨-, row, hrow, -⟩ := Dataset.mem_levelsAt.1 hmem
      cases hrow

/-- A row counts in the cell of its labels. -/
theorem crossCount_pos {row : Nat} (hrow : row ∈ rows) {a b : String}
    (ha : d.labelAt v.name row = some a) (hb : d.labelAt w.name row = some b) :
    0 < d.crossCount rows v w a b :=
  List.countP_pos_iff.2 ⟨row, hrow, by simp [ha, hb]⟩

/-- **No row and no column of a cross-tabulation is empty.** -/
theorem noEmptyMargin (hv : d.Labelled rows v) (hw : d.Labelled rows w) :
    NoEmptyMargin (d.crossCount rows v w) (d.levelsAt v rows) (d.levelsAt w rows) where
  rowTotal_pos a ha := by
    obtain ⟨-, row, hrow, ha⟩ := Dataset.mem_levelsAt.1 ha
    obtain ⟨b, -, hb⟩ := hw row hrow
    exact (crossCount_pos hrow ha hb).trans_le
      (List.le_sum_of_mem (List.mem_map_of_mem (hw.mem_levelsAt hrow hb)))
  columnTotal_pos b hb := by
    obtain ⟨-, row, hrow, hb⟩ := Dataset.mem_levelsAt.1 hb
    obtain ⟨a, -, ha⟩ := hv row hrow
    exact (crossCount_pos hrow ha hb).trans_le
      (List.le_sum_of_mem (List.mem_map_of_mem (hv.mem_levelsAt hrow ha)))

end Dataset

/-! ### Pairs of labels -/

section Pairs

variable {rows : List Nat} {d : Dataset α} {v w : Variable}

/-- Pairs that are read side by side occur as often as the rows at which both are read. -/
theorem count_sideBySide (f g : Nat → Option String) (rows : List Nat) (a b : String) :
    (sideBySide f g rows).count (a, b) =
      rows.countP fun row => f row == some a && g row == some b := by
  rw [List.count, sideBySide, List.countP_filterMap]
  refine List.countP_congr fun row _ => ?_
  cases f row with
  | none => simp
  | some x => cases g row <;> simp [Prod.ext_iff]

theorem mem_of_mem_sideBySide {f g : Nat → Option String} {x : String × String}
    (hx : x ∈ sideBySide f g rows) : ∃ row ∈ rows, f row = some x.1 ∧ g row = some x.2 := by
  obtain ⟨row, hrow, hx⟩ := List.mem_filterMap.1 hx
  obtain ⟨a, ha, hx⟩ := Option.bind_eq_some_iff.1 hx
  obtain ⟨b, hb, rfl⟩ := Option.map_eq_some_iff.1 hx
  exact ⟨row, hrow, ha, hb⟩

/-- **The cells of a cross-tabulation sum up to its rows.** -/
theorem tableTotal_crossCount (hv : d.Labelled rows v) (hw : d.Labelled rows w) :
    tableTotal (d.crossCount rows v w) (d.levelsAt v rows) (d.levelsAt w rows) = rows.length := by
  let observed := sideBySide (d.labelAt v.name) (d.labelAt w.name) rows
  have htable : Exact.tabulate (d.crossCount rows v w) (d.levelsAt v rows) (d.levelsAt w rows) =
      (d.levelsAt v rows).map fun a => (d.levelsAt w rows).map fun b => observed.count (a, b) :=
    tabulate_congr fun a _ b _ => (count_sideBySide _ _ rows a b).symm
  rw [← sum_flatten_tabulate, htable, sum_flatten_count Dataset.nodup_levelsAt
    Dataset.nodup_levelsAt, length_sideBySide hv.isSome_labelAt hw.isSome_labelAt]
  intro x hx
  obtain ⟨row, hrow, ha, hb⟩ := mem_of_mem_sideBySide hx
  exact ⟨hv.mem_levelsAt hrow ha, hw.mem_levelsAt hrow hb⟩

/-- The labels of a table whose observations are those of some rows. -/
theorem occurringNames_eq_levelsAt {labels : List String}
    (hlabels : ∀ label ∈ labels, label ∈ v.labels)
    (h : labels.map some = rows.map (d.labelAt v.name)) :
    occurringNames v labels = d.levelsAt v rows := by
  rw [occurringNames_eq_filter hlabels, Dataset.levelsAt]
  refine List.filter_congr fun label _ => ?_
  rw [Bool.eq_iff_iff, List.contains_iff_mem, List.any_eq_true,
    ← List.mem_map_of_injective (Option.some_injective String), h, List.mem_map]
  simp only [beq_iff_eq]

end Pairs

/-! ### The rows of two variables -/

/-- The rows at which two bindings have a cell, in ascending order if those of the first one are. -/
def Binding.sharedRows (b b' : Binding α) : List Nat :=
  b.rows.filter fun row => b'.rows.contains row

section Shared

variable {d : Dataset α} {rows rows' : List Nat} {a e r : AnnotatedVariable α}

theorem Binding.mem_sharedRows {b b' : Binding α} {row : Nat} :
    row ∈ b.sharedRows b' ↔ row ∈ b.rows ∧ row ∈ b'.rows := by
  rw [sharedRows, List.mem_filter, List.contains_iff_mem]

theorem labelled_sharedRows {b b' : Binding α} {v w : Variable} (hv : d.Labelled b.rows v)
    (hw : d.Labelled b'.rows w) :
    d.Labelled (b.sharedRows b') v ∧ d.Labelled (b.sharedRows b') w :=
  ⟨fun row hrow => hv row (Binding.mem_sharedRows.1 hrow).1,
    fun row hrow => hw row (Binding.mem_sharedRows.1 hrow).2⟩

/-- **Two categorical variables meet at the rows that both have.** -/
theorem alignedLabels_eq (hd : d.WellFormed) (hrows' : d.AscendingRows rows')
    (he : e.TakenAt d rows) (hr : r.TakenAt d rows') (hv : d.Labelled rows e.var)
    (hw : d.Labelled rows' r.var) :
    alignedLabels e r = sideBySide (d.labelAt e.var.name) (d.labelAt r.var.name)
      (rows.filter fun row => rows'.contains row) := by
  obtain ⟨f, hf⟩ := he.exists_takenFrom
  obtain ⟨o, ho⟩ := hr.exists_takenFrom
  rw [alignedLabels, hf.binding_eq, Column.entriesAt, List.filterMap_filterMap, sideBySide,
    List.filterMap_filter]
  refine List.filterMap_congr fun row hrow => ?_
  obtain ⟨label, hlabel, hat⟩ := hv row hrow
  obtain ⟨cell, hcell, htext⟩ := Option.bind_eq_some_iff.1 ((hf.labelAt_eq row).symm.trans hat)
  rw [hcell, hat]
  by_cases hmem : row ∈ rows'
  · obtain ⟨label', hlabel', hat'⟩ := hw row hmem
    obtain ⟨cell', hcell', htext'⟩ :=
      Option.bind_eq_some_iff.1 ((ho.labelAt_eq row).symm.trans hat')
    rw [if_pos (List.contains_iff_mem.2 hmem), hat']
    simp [htext, ho.cellAt_eq hd hrows' hmem, hcell', htext', hlabel, hlabel']
  · have hnone : r.binding.cellAt row = none := by
      refine Option.eq_none_iff_forall_ne_some.2 fun cell' hcell' => hmem ?_
      rw [Binding.cellAt_eq_some_iff (hr.1.pairwise_rows hd hrows'), ho.binding_eq,
        Column.mem_entriesAt] at hcell'
      exact hcell'.1
    rw [if_neg (mt List.contains_iff_mem.1 hmem)]
    simp [htext, hnone]

variable [Numeric α]

/-- A categorical variable is labelled at all rows that it is taken from. -/
theorem AnnotatedVariable.TakenAt.labelled (hd : d.WellFormed) (hchecked : d.Checked)
    (hrows : d.AscendingRows rows) (ha : a.TakenAt d rows)
    (hscale : a.var.scale.isCategorical = true) : d.Labelled rows a.var := by
  intro row hrow
  obtain ⟨c, hc⟩ := ha.exists_takenFrom
  have hlt := hrows.lt_length hd hc.get?_eq row hrow
  obtain ⟨label, hlabel, hcell⟩ := Variable.exists_label_of_checkCell
    (by rwa [hc.var_eq]) (hchecked _ c hc.get?_eq _ (List.getElem_mem hlt))
  refine ⟨label, hc.var_eq ▸ hlabel, ?_⟩
  rw [hc.labelAt_eq, List.getElem?_eq_getElem hlt, hcell]
  rfl

/-- **The computed table is the cross-tabulation** of the rows that both variables have. -/
theorem contingencyProperties_eq_crossTable (hd : d.WellFormed)
    (hrows : d.AscendingRows r.binding.rows) (he : e.TakenAt d e.binding.rows)
    (hr : r.TakenAt d r.binding.rows) (hv : d.Labelled e.binding.rows e.var)
    (hw : d.Labelled r.binding.rows r.var) (base : PairProperties α) :
    let rows := e.binding.sharedRows r.binding
    let levels := d.levelsAt e.var rows
    let levels' := d.levelsAt r.var rows
    let table := countTable α (d.crossCount rows e.var r.var) levels levels'
    contingencyProperties e r base = { base with
      shape := .contingency levels.length levels'.length
      samples := .contingency levels levels' table
      sampleSizes := .ofList ([e.var.name, r.var.name].map fun name => (name, rows.length))
      minExpectedCount := least? (expectedCounts table).flatten } := by
  intro rows levels levels' table
  have hshared : d.Labelled rows e.var ∧ d.Labelled rows r.var := labelled_sharedRows hv hw
  have haligned : alignedLabels e r =
      sideBySide (d.labelAt e.var.name) (d.labelAt r.var.name) rows :=
    alignedLabels_eq hd hrows he hr hv hw
  obtain ⟨hfst, hsnd⟩ :=
    map_sideBySide hshared.1.isSome_labelAt hshared.2.isSome_labelAt
  have hlength := length_sideBySide hshared.1.isSome_labelAt hshared.2.isSome_labelAt
  rw [← haligned] at hfst hsnd hlength
  have hlevels : occurringNames e.var ((alignedLabels e r).map (·.1)) = levels :=
    occurringNames_eq_levelsAt
      (List.forall_mem_map.2 fun p hp => (mem_labels_of_mem_alignedLabels hp).1) hfst
  have hlevels' : occurringNames r.var ((alignedLabels e r).map (·.2)) = levels' :=
    occurringNames_eq_levelsAt
      (List.forall_mem_map.2 fun p hp => (mem_labels_of_mem_alignedLabels hp).2) hsnd
  have htable : (levels.map fun a => levels'.map fun b =>
      (Numeric.ofNat ((alignedLabels e r).count (a, b)) : α)) = table := by
    refine tabulate_congr fun a _ b _ => ?_
    rw [haligned, count_sideBySide]
    rfl
  rw [contingencyProperties_eq, hlevels, hlevels', htable, hlength]
  rfl

end Shared

/-! ### Comparisons -/

section Comparisons

variable [Numeric α] [Tails α] [NumberText α] {d : Dataset α} {kind : StudyKind}
  {design : Design α} {e r : AnnotatedVariable α} {p : PairProperties α} {m n : Nat}

/-- Only a cross-tabulation has the shape of one. -/
theorem exists_contingency_of_shape {hasRoles : Bool}
    (h : pairProperties d design kind hasRoles e r = .ok p) (hshape : p.shape = .contingency m n) :
    layoutOf kind e r = .contingency ∧
      ∃ base, base.names = [e.var.name, r.var.name] ∧ p = contingencyProperties e r base := by
  rw [pairProperties] at h
  cases hlayout : layoutOf kind e r with
  | contingency =>
      rw [hlayout] at h
      exact ⟨rfl, _, rfl, (Except.ok.inj h).symm⟩
  | correlation =>
      rw [hlayout] at h
      obtain rfl := Except.ok.inj h
      cases hshape
  | groups factor outcome =>
      rw [hlayout] at h
      obtain ⟨k, hgroups⟩ := shape_groupProperties h
      cases hshape.symm.trans hgroups

/-- **Contingency tables are exact cross-tabulations.**  Take two categorical variables at the rows
that both have.  The labels of the table are the declared levels of each variable that occur there,
in declared order, and each cell is the number of the rows that carry its two labels.  No row and no
column is empty, and the cells sum up to the number of the rows, which is the sample size of both
variables.  The least expected count is recorded; it is positive as long as the numbers add up so
many rows without rounding, as real numbers always do (`Exact.addsCounts`) and doubles below
`2 ^ 53` (`Double.addsCounts`).  In exact arithmetic, the chi-square test of the table fails only if
fewer than two levels of a variable occur. -/
theorem contingency_is_crossTabulation [TotallyOrdered α] [Tails ℝ] {ctx : Context α}
    {operands : List (Expression α)} {bindings : List (Binding α)} {keep : List Nat}
    {c : Combination α} (hd : d.Built)
    (hbindings : operands.mapM (evaluateBinding d ctx) = .ok bindings)
    (hc : combine d (bindings.map (·.restrict keep)) design = .ok c)
    (hp : p ∈ c.pairs) (hshape : p.shape = .contingency m n) :
    ∃ e ∈ c.vars, ∃ r ∈ c.vars,
      p.names = [e.var.name, r.var.name] ∧ layoutOf c.kind e r = .contingency ∧
      d.findVariable e.var.name = .ok e.var ∧ d.findVariable r.var.name = .ok r.var ∧
      let rows := e.binding.sharedRows r.binding
      let levels := d.levelsAt e.var rows
      let levels' := d.levelsAt r.var rows
      let count := d.crossCount rows e.var r.var
      let expected := (expectedCounts (countTable α count levels levels')).flatten
      rows.Pairwise (· < ·) ∧ m = levels.length ∧ n = levels'.length ∧
      p.samples = .contingency levels levels' (countTable α count levels levels') ∧
      NoEmptyMargin count levels levels' ∧ tableTotal count levels levels' = rows.length ∧
      p.sampleSizes.get? e.var.name = some rows.length ∧
      p.sampleSizes.get? r.var.name = some rows.length ∧
      (p.minExpectedCount = none ↔ rows = []) ∧
      (∀ x, p.minExpectedCount = some x →
        x ∈ expected ∧ (∀ y ∈ expected, Numeric.totalLe x y = true) ∧
          (Numeric.AddsCounts α rows.length → 0 < x)) ∧
      ∀ failure, chiSquareIndependence (countTable ℝ count levels levels') = .error failure ↔
        (levels.length < 2 ∨ levels'.length < 2) ∧
          failure = .insufficientData 2 (min levels.length levels'.length) := by
  obtain ⟨hasRoles, e, he, r, hr, hpair⟩ := exists_compared_of_combine hc hp
  obtain ⟨_, _, -, hvars, -, -⟩ := combine_eq_ok_iff.1 hc
  obtain ⟨hlayout, base, hnames, rfl⟩ := exists_contingency_of_shape hpair hshape
  obtain ⟨hscale, hscale'⟩ := scales_of_contingency hlayout
  obtain ⟨-, -, -, hrows, htaken⟩ := taken_of_mem_vars hd.wellFormed hbindings hvars e he
  obtain ⟨-, -, -, hrows', htaken'⟩ := taken_of_mem_vars hd.wellFormed hbindings hvars r hr
  have hv := htaken.labelled hd.wellFormed hd.checked hrows hscale
  have hw := htaken'.labelled hd.wellFormed hd.checked hrows' hscale'
  have hproperties :=
    contingencyProperties_eq_crossTable hd.wellFormed hrows' htaken htaken' hv hw base
  refine ⟨e, he, r, hr, hnames, hlayout, htaken.findVariable_eq, htaken'.findVariable_eq, ?_⟩
  intro rows levels levels' count expected
  have hshared : d.Labelled rows e.var ∧ d.Labelled rows r.var := labelled_sharedRows hv hw
  have hmargins : NoEmptyMargin count levels levels' := Dataset.noEmptyMargin hshared.1 hshared.2
  have htotal : tableTotal count levels levels' = rows.length :=
    tableTotal_crossCount hshared.1 hshared.2
  have hsizes : ∀ name ∈ [e.var.name, r.var.name],
      (contingencyProperties e r base).sampleSizes.get? name = some rows.length := by
    intro name hname
    rw [hproperties]
    exact (NameMap.get?_ofList_map _ _ name).trans (if_pos hname)
  have hleast : (contingencyProperties e r base).minExpectedCount = least? expected := by
    rw [hproperties]
  have hnone : expected = [] ↔ rows = [] := by
    rw [expectedCounts_flatten_eq_nil_iff, hshared.1.levelsAt_eq_nil_iff,
      hshared.2.levelsAt_eq_nil_iff, or_self]
  obtain ⟨rfl, rfl⟩ : m = levels.length ∧ n = levels'.length := by
    rw [hproperties] at hshape
    obtain ⟨hm, hn⟩ := Shape.contingency.inj hshape
    exact ⟨hm.symm, hn.symm⟩
  refine ⟨hrows.pairwise.filter _, rfl, rfl, by rw [hproperties], hmargins, htotal,
    hsizes _ (by simp), hsizes _ (by simp), ?_, fun x hx => ?_, fun failure => ?_⟩
  · rw [hleast, least?_eq_none_iff, hnone]
  · rw [hleast] at hx
    obtain ⟨hmem, hle⟩ := isLeast_of_least? hx
    exact ⟨hmem, hle, fun h => expectedCounts_pos h hmargins htotal.le x hmem⟩
  · exact chiSquareIndependence_countTable_eq_error_iff (Exact.addsCounts rows.length) hmargins
      htotal.le

end Comparisons

/-- The columns of six patients, their treatments and how they went on. -/
def patientColumns : List (Column Float) := [
  ⟨⟨"treatment", .nominal, some ["control", "placebo", "drug"]⟩,
    [.text "drug", .text "control", .text "placebo", .text "drug", .text "control", .text "drug"]⟩,
  ⟨⟨"outcome", .nominal, some ["better", "worse", "same"]⟩,
    [.text "better", .text "same", .text "worse", .text "same", .text "same", .text "better"]⟩]

/-- Without the placebo no outcome is worse.  Two rows and two columns are left of the table, every
cell of which is expected to have observations, and its chi-square test does not fail. -/
theorem contingency_is_crossTabulation_of_patients :
    let _tails := Exact.densityTails
    let ctx : Context Float := ⟨.standard, some (.experiment ["treatment"] ["outcome"]), ⟨∅, ∅⟩⟩
    let operands : List (Expression Float) :=
      [.filter .ne (.column "treatment") (.literal (.text "placebo")), .column "outcome"]
    ∃ d bindings c p count, Dataset.ofColumns patientColumns = .ok d ∧
      operands.mapM (evaluateBinding d ctx) = .ok bindings ∧
      Binding.commonRows bindings = [0, 1, 3, 4, 5] ∧
      combine d (bindings.map (·.restrict (Binding.commonRows bindings)))
        (.experiment ["treatment"] ["outcome"]) = .ok c ∧
      c.pairs = [p] ∧ p.shape = .contingency 2 2 ∧
      p.samples = .contingency ["control", "drug"] ["better", "same"] [[0, 2], [2, 1]] ∧
      p.sampleSizes.get? "treatment" = some 5 ∧ (∃ x, p.minExpectedCount = some x ∧ 0 < x) ∧
      countTable Float count ["control", "drug"] ["better", "same"] = [[0, 2], [2, 1]] ∧
      ∀ failure, chiSquareIndependence (countTable ℝ count ["control", "drug"] ["better", "same"]) ≠
        .error failure := by
  intro _tails ctx operands
  obtain ⟨d, bindings, c, p, hd, hbindings, hrows, hc, hpairs, hshape, hsamples, hnames, hsize⟩ :
      ∃ d bindings c p, Dataset.ofColumns patientColumns = .ok d ∧
        operands.mapM (evaluateBinding d ctx) = .ok bindings ∧
        Binding.commonRows bindings = [0, 1, 3, 4, 5] ∧
        combine d (bindings.map (·.restrict (Binding.commonRows bindings)))
          (.experiment ["treatment"] ["outcome"]) = .ok c ∧
        c.pairs = [p] ∧ p.shape = .contingency 2 2 ∧
        p.samples = .contingency ["control", "drug"] ["better", "same"] [[0, 2], [2, 1]] ∧
        p.names = ["treatment", "outcome"] ∧ p.sampleSizes.get? "treatment" = some 5 :=
    ⟨_, _, _, _, rfl, rfl, rfl, rfl, rfl, rfl, rfl, rfl, rfl⟩
  have hp : p ∈ c.pairs := by
    rw [hpairs]
    exact List.mem_singleton_self p
  obtain ⟨e, -, r, -, hnames', -, -, -, -, -, -, htable, -, -, hsize', -, hnone, hleast, hchi⟩ :=
    contingency_is_crossTabulation (.ofColumns hd) hbindings hc hp hshape
  obtain ⟨hlevels, hlevels', hcounts⟩ := Samples.contingency.inj (hsamples.symm.trans htable)
  have hname : "treatment" = e.var.name := (List.cons.inj (hnames.symm.trans hnames')).1
  have hlength : (e.binding.sharedRows r.binding).length = 5 := by
    rw [← hname, hsize] at hsize'
    exact (Option.some.inj hsize').symm
  rw [← hlevels, ← hlevels'] at hcounts hleast hchi
  refine ⟨d, bindings, c, p, _, hd, hbindings, hrows, hc, hpairs, hshape, hsamples, hsize, ?_,
    hcounts.symm, fun failure hfailure => ?_⟩
  · cases hx : p.minExpectedCount with
    | none =>
        rw [hnone.1 hx] at hlength
        cases hlength
    | some x =>
        refine ⟨x, rfl, (hleast x hx).2.2 ?_⟩
        rw [hlength]
        exact Double.addsCounts (by decide)
  · obtain ⟨hfew, -⟩ := (hchi failure).1 hfailure
    exact absurd hfew (by decide)

end StudyAnalysis
