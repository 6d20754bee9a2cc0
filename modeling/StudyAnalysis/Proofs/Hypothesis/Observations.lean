/-
**Which rows the samples of a comparison take.**

A comparison that is not within subjects is prepared from the rows that all operands of a hypothesis
have.  No row is lost on the way: the cells of a dataset are checked, so that each of them has a
label or a number.  A correlation and a contingency table take every row once.  Groups do so exactly
if no label occurs that the factor declares twice, since every declared label makes its own group.

Main definitions:

* `StudyAnalysis.TakesEachRowOnce` — every row belongs to one of some samples;
* `StudyAnalysis.PairProperties.ObservesEachRowOnce` — **every row contributes exactly one
  observation to a comparison**.

Main results:

* `StudyAnalysis.groupsOf_eq_ok`, `StudyAnalysis.alignedKeys_eq`, `StudyAnalysis.alignedRanks_eq` —
  the three layouts in terms of rows alone;
* `StudyAnalysis.sum_contingencyCounts` — the cells of a table sum up to its observations;
* `StudyAnalysis.observesEachRowOnce_iff` — **when every row contributes exactly one observation**.
-/

import Mathlib
import StudyAnalysis.Proofs.Data.Readings
import StudyAnalysis.Proofs.Hypothesis.PreparedSamples
import StudyAnalysis.Proofs.Hypothesis.RowRestriction

set_option autoImplicit false
set_option relaxedAutoImplicit false

namespace StudyAnalysis

open Fallible

variable {α : Type}

/-! ### Variables and their columns -/

/-- A variable has the cells of a column at some rows. -/
structure AnnotatedVariable.TakenFrom (d : Dataset α) (rows : List Nat) (c : Column α)
    (a : AnnotatedVariable α) : Prop where
  get?_eq : d.columns.get? c.var.name = some c
  var_eq : c.var = a.var
  binding_eq : a.binding = ⟨c.entriesAt rows, some c.var⟩

namespace AnnotatedVariable

variable {d : Dataset α} {rows : List Nat} {c : Column α} {a : AnnotatedVariable α}

theorem TakenAt.exists_takenFrom (ha : a.TakenAt d rows) : ∃ c, a.TakenFrom d rows c := by
  obtain ⟨⟨c, hc, hbinding⟩, hvar⟩ := ha
  refine ⟨c, hc, ?_, hbinding⟩
  rw [hbinding] at hvar
  exact Option.some.inj hvar

theorem TakenFrom.takenAt (ha : a.TakenFrom d rows c) : a.TakenAt d rows := by
  refine ⟨⟨c, ha.get?_eq, ha.binding_eq⟩, ?_⟩
  rw [ha.binding_eq, ha.var_eq]

theorem TakenFrom.get?_name (ha : a.TakenFrom d rows c) : d.columns.get? a.var.name = some c := by
  rw [← ha.var_eq]
  exact ha.get?_eq

/-- Reading a variable at one of its rows is reading its column there. -/
theorem TakenFrom.cellAt_eq (hd : d.WellFormed) (hrows : d.AscendingRows rows)
    (ha : a.TakenFrom d rows c) {row : Nat} (hrow : row ∈ rows) :
    a.binding.cellAt row = c.cells[row]? := by
  refine Option.ext fun cell => ?_
  rw [Binding.cellAt_eq_some_iff (ha.takenAt.1.pairwise_rows hd hrows), ha.binding_eq,
    Column.mem_entriesAt]
  exact and_iff_right hrow

end AnnotatedVariable

/-! ### Taking each row once -/

/-- Some samples take each row once: every sample has what is read at some of the rows, and every
row belongs to one sample. -/
def TakesEachRowOnce (read : Nat → Option α) (rows : List Nat) (samples : List (List α)) : Prop :=
  ∃ members : List (List Nat),
    samples.map (List.map some) = members.map (List.map read) ∧ members.flatten.Perm rows

/-- Samples that take each row once are together as many as the rows. -/
theorem TakesEachRowOnce.sum_length {read : Nat → Option α} {rows : List Nat}
    {samples : List (List α)} (h : TakesEachRowOnce read rows samples) :
    (samples.map List.length).sum = rows.length := by
  obtain ⟨members, hsame, hperm⟩ := h
  have hsizes := congrArg (fun l => (l.map List.length).sum) hsame
  simp only [List.map_map, Function.comp_def, List.length_map] at hsizes
  rw [hsizes, ← hperm.length_eq, List.length_flatten]

section Groups

variable [Numeric α] {f o : Column α} {rows : List Nat} {read : Nat → Option α}

/-- The readings of an outcome at the rows of the occurring labels of a factor. -/
def samplesOf (f o : Column α) (rows : List Nat) : List (List α) :=
  (f.occurring rows).map fun label => (o.readings (f.rowsWith rows label)).map (·.2)

theorem map_some_samplesOf (hread : ∀ row ∈ rows, (o.keyAt row).isSome = true) :
    (samplesOf f o rows).map (List.map some) =
      ((f.occurring rows).map (f.rowsWith rows)).map (List.map o.keyAt) := by
  rw [samplesOf, List.map_map, List.map_map]
  refine List.map_congr_left fun label _ => ?_
  exact Column.map_snd_readings fun row hrow => hread row (Column.mem_rowsWith.1 hrow).1

theorem takesEachRowOnce_of_nodup (hscale : f.var.scale.isCategorical = true)
    (hchecked : ∀ cell ∈ f.cells, f.var.checkCell cell = .ok ())
    (hrows : ∀ row ∈ rows, row < f.cells.length) (hnodup : rows.Nodup)
    (hread : ∀ row ∈ rows, (o.keyAt row).isSome = true) (h : (f.occurring rows).Nodup) :
    TakesEachRowOnce o.keyAt rows (samplesOf f o rows) :=
  ⟨_, map_some_samplesOf hread, (Column.rowsWith_perm_iff hscale hchecked hrows hnodup).2 h⟩

/-- If the samples of the labels take each row once, no label occurs twice: otherwise they would
take more than the rows. -/
theorem nodup_of_takesEachRowOnce (hscale : f.var.scale.isCategorical = true)
    (hchecked : ∀ cell ∈ f.cells, f.var.checkCell cell = .ok ())
    (hrows : ∀ row ∈ rows, row < f.cells.length) (hnodup : rows.Nodup)
    (hread : ∀ row ∈ rows, (o.keyAt row).isSome = true)
    (h : TakesEachRowOnce read rows (samplesOf f o rows)) : (f.occurring rows).Nodup := by
  have hlength : ((f.occurring rows).map (f.rowsWith rows)).flatten.length = rows.length := by
    have hsizes := congrArg (fun l => (l.map List.length).sum) (map_some_samplesOf hread (f := f))
    simp only [List.map_map, Function.comp_def, List.length_map] at hsizes
    rw [← h.sum_length, List.length_flatten, List.map_map]
    exact hsizes.symm
  have hsubset : rows ⊆ ((f.occurring rows).map (f.rowsWith rows)).flatten := fun _ hrow =>
    (Column.mem_flatten_rowsWith hscale hchecked hrows).2 hrow
  have hall := (hnodup.subperm hsubset).perm_of_length_le (Nat.le_of_eq hlength)
  exact (Column.rowsWith_perm_iff hscale hchecked hrows hnodup).1 hall.symm

variable {d : Dataset α} {factor outcome : AnnotatedVariable α}

/-- The groups of a factor are the readings of the outcome at the rows of its occurring labels. -/
theorem groupsOf_eq_ok (hd : d.WellFormed) (hrows : d.AscendingRows rows)
    (hf : factor.TakenFrom d rows f) (ho : outcome.TakenFrom d rows o)
    (hread : ∀ row ∈ rows, (o.keyAt row).isSome = true) :
    groupsOf d factor outcome =
      .ok ((f.occurring rows).map fun label => (label, o.readings (f.rowsWith rows label))) := by
  have hgroups : (factor.var.labels.mapM fun label => do
        return (label, ← groupRows d factor outcome label)) =
      .ok (factor.var.labels.map fun label => (label, o.readings (f.rowsWith rows label))) := by
    refine mapM_of_eq_ok _ fun label _ => ?_
    rw [groupRows_eq_ok hd hrows hf.takenAt ho.get?_name hf.get?_name, ← ho.var_eq]
    exact congrArg (fun g => Except.ok (label, g)) Column.filterMap_entriesAt
  rw [groupsOf]
  show (factor.var.labels.mapM _ >>= _) = _
  rw [hgroups, ok_bind, pure_eq_ok, ← hf.var_eq, List.filter_map]
  refine congrArg (fun labels : List String =>
    Except.ok (labels.map fun label => (label, o.readings (f.rowsWith rows label))))
      (List.filter_congr fun label _ => ?_)
  -- the readings of a label are as many as its rows
  have hfst : (o.readings (f.rowsWith rows label)).map (·.1) = f.rowsWith rows label :=
    Column.map_fst_readings fun row hrow => hread row (Column.mem_rowsWith.1 hrow).1
  show (!(o.readings (f.rowsWith rows label)).isEmpty) = _
  rw [← List.isEmpty_map (f := fun e : Nat × α => e.1), hfst]

end Groups

/-! ### Reading two variables together -/

section Aligned

variable {d : Dataset α} {rows : List Nat} {e r : AnnotatedVariable α} {f o : Column α}

/-- Two readings of some rows side by side; a row that one of them cannot read is left out. -/
def sideBySide {β γ : Type} (a : Nat → Option β) (b : Nat → Option γ) (rows : List Nat) :
    List (β × γ) :=
  rows.filterMap fun row => (a row).bind fun x => (b row).map (x, ·)

/-- If both can read all rows, none is lost. -/
theorem map_sideBySide {β γ : Type} {a : Nat → Option β} {b : Nat → Option γ}
    (ha : ∀ row ∈ rows, (a row).isSome = true) (hb : ∀ row ∈ rows, (b row).isSome = true) :
    ((sideBySide a b rows).map (·.1)).map some = rows.map a ∧
      ((sideBySide a b rows).map (·.2)).map some = rows.map b := by
  induction rows with
  | nil => exact ⟨rfl, rfl⟩
  | cons row rest ih =>
      obtain ⟨harow, harest⟩ := List.forall_mem_cons.1 ha
      obtain ⟨hbrow, hbrest⟩ := List.forall_mem_cons.1 hb
      obtain ⟨x, hx⟩ := Option.isSome_iff_exists.1 harow
      obtain ⟨y, hy⟩ := Option.isSome_iff_exists.1 hbrow
      obtain ⟨hfst, hsnd⟩ := ih harest hbrest
      have hcons : sideBySide a b (row :: rest) = (x, y) :: sideBySide a b rest :=
        List.filterMap_cons_some (by rw [hx, hy]; rfl)
      rw [hcons]
      simp only [List.map_cons, hfst, hsnd, hx, hy, and_self]

theorem length_sideBySide {β γ : Type} {a : Nat → Option β} {b : Nat → Option γ}
    (ha : ∀ row ∈ rows, (a row).isSome = true) (hb : ∀ row ∈ rows, (b row).isSome = true) :
    (sideBySide a b rows).length = rows.length := by
  simpa using congrArg List.length (map_sideBySide ha hb).1

/-- Two variables that are read cell by cell are read at the cells of their columns. -/
theorem filterMap_aligned {β γ : Type} (hd : d.WellFormed) (hrows : d.AscendingRows rows)
    (hf : e.TakenFrom d rows f) (ho : r.TakenFrom d rows o) (a : Cell α → Option β)
    (b : Cell α → Option γ) :
    (e.binding.entries.filterMap fun entry =>
        (a entry.2).bind fun x => ((r.binding.cellAt entry.1).bind b).map (x, ·)) =
      sideBySide (fun row => f.cells[row]?.bind a) (fun row => o.cells[row]?.bind b) rows := by
  rw [hf.binding_eq, Column.entriesAt, List.filterMap_filterMap]
  refine List.filterMap_congr fun row hrow => ?_
  dsimp only
  rw [← ho.cellAt_eq hd hrows hrow]
  cases f.cells[row]? <;> rfl

theorem alignedKeys_eq [Numeric α] (hd : d.WellFormed) (hrows : d.AscendingRows rows)
    (hf : e.TakenFrom d rows f) (ho : r.TakenFrom d rows o) :
    alignedKeys e r = sideBySide f.keyAt o.keyAt rows := by
  have haligned := filterMap_aligned hd hrows hf ho e.var.orderKey r.var.orderKey
  rw [← hf.var_eq, ← ho.var_eq] at haligned
  rw [alignedKeys, ← hf.var_eq, ← ho.var_eq]
  refine Eq.trans (List.filterMap_congr fun ⟨row, cell⟩ _ => ?_) haligned
  simp [Option.map_eq_bind, Option.bind_assoc]

/-- The place of the label of a row. -/
def Column.rankAt (c : Column α) (row : Nat) : Option Nat :=
  c.cells[row]?.bind fun cell => cell.text?.bind c.var.rankOf

theorem alignedRanks_eq (hd : d.WellFormed) (hrows : d.AscendingRows rows)
    (hf : e.TakenFrom d rows f) (ho : r.TakenFrom d rows o) :
    alignedRanks e r = sideBySide f.rankAt o.rankAt rows := by
  have haligned := filterMap_aligned hd hrows hf ho (fun cell => cell.text?.bind f.var.rankOf)
    (fun cell => cell.text?.bind o.var.rankOf)
  rw [alignedRanks, ← hf.var_eq, ← ho.var_eq]
  refine Eq.trans (List.filterMap_congr fun ⟨row, cell⟩ _ => ?_) haligned
  simp [Option.map_eq_bind, Option.bind_assoc]

end Aligned

/-! ### Contingency tables -/

section Contingency

variable {d : Dataset α} {rows : List Nat} {e r : AnnotatedVariable α} {f o : Column α}

/-- Counting every value of a list that may occur counts the list. -/
theorem sum_map_count {β : Type} [DecidableEq β] [BEq β] [LawfulBEq β] {ks xs : List β}
    (hks : ks.Nodup) (hxs : ∀ x ∈ xs, x ∈ ks) : (ks.map fun k => xs.count k).sum = xs.length := by
  have hsum : ∑ k ∈ ks.toFinset, (xs : Multiset β).count k = (xs : Multiset β).card :=
    Multiset.sum_count_eq_card fun x hx => List.mem_toFinset.2 (hxs x hx)
  rw [← List.sum_toFinset _ hks]
  refine (Finset.sum_congr rfl fun k _ => ?_).trans hsum
  -- both counts compare alike, whatever test of equality they use
  rw [Multiset.coe_count]
  congr 1
  exact lawful_beq_subsingleton _ _

/-- The cells of a table that counts pairs sum up to their number. -/
theorem sum_flatten_count {β γ : Type} [DecidableEq β] [DecidableEq γ] {is : List β} {js : List γ}
    {observed : List (β × γ)} (his : is.Nodup) (hjs : js.Nodup)
    (h : ∀ x ∈ observed, x.1 ∈ is ∧ x.2 ∈ js) :
    (is.map fun i => js.map fun j => observed.count (i, j)).flatten.sum = observed.length := by
  have hflatten : (is.map fun i => js.map fun j => observed.count (i, j)).flatten =
      (is ×ˢ js).map fun k => observed.count k := by
    simp [SProd.sprod, List.product, List.flatMap_def, Function.comp_def]
  rw [hflatten]
  exact sum_map_count (his.product hjs) fun x hx => List.mem_product.2 (h x hx)

theorem map_snd_occurringLabels_sublist (v : Variable) (ranks : List Nat) :
    ((occurringLabels v ranks).map (·.2)).Sublist (List.range' 1 v.labels.length) := by
  rw [← List.zipIdx_map_snd 1 v.labels]
  exact List.filter_sublist.map _

/-- A rank of a declared label that occurs is listed. -/
theorem mem_occurringLabels {v : Variable} {ranks : List Nat} {label : String} {rank : Nat}
    (hrank : v.rankOf label = some rank) (hmem : rank ∈ ranks) :
    rank ∈ (occurringLabels v ranks).map (·.2) := by
  obtain ⟨i, hi, rfl⟩ := Option.map_eq_some_iff.1 hrank
  obtain ⟨hlt, hlabel, -⟩ := List.idxOf?_eq_some_iff.1 hi
  refine List.mem_map.2 ⟨(label, i + 1), List.mem_filter.2 ⟨?_, List.contains_iff_mem.2 hmem⟩, rfl⟩
  rw [List.mk_mem_zipIdx_iff_le_and_getElem?_sub, Nat.add_sub_cancel,
    List.getElem?_eq_getElem hlt]
  exact ⟨Nat.le_add_left 1 i, congrArg some hlabel⟩

/-- The counts of a cross-tabulation of observed pairs of ranks. -/
def contingencyCounts (v w : Variable) (observed : List (Nat × Nat)) : List (List Nat) :=
  (occurringLabels v (observed.map (·.1))).map fun a =>
    (occurringLabels w (observed.map (·.2))).map fun b => observed.count (a.2, b.2)

/-- **The cells of a table sum up to its observations.** -/
theorem sum_contingencyCounts {v w : Variable} {observed : List (Nat × Nat)}
    (h : ∀ x ∈ observed,
      (∃ label, v.rankOf label = some x.1) ∧ ∃ label, w.rankOf label = some x.2) :
    (contingencyCounts v w observed).flatten.sum = observed.length := by
  have hcounts : contingencyCounts v w observed =
      ((occurringLabels v (observed.map (·.1))).map (·.2)).map fun i =>
        ((occurringLabels w (observed.map (·.2))).map (·.2)).map fun j =>
          observed.count (i, j) := by
    simp only [contingencyCounts, List.map_map, Function.comp_def]
  rw [hcounts]
  refine sum_flatten_count ((List.nodup_range' 1).sublist (map_snd_occurringLabels_sublist v _))
    ((List.nodup_range' 1).sublist (map_snd_occurringLabels_sublist w _)) fun x hx => ?_
  obtain ⟨⟨label, hlabel⟩, label', hlabel'⟩ := h x hx
  exact ⟨mem_occurringLabels hlabel (List.mem_map_of_mem hx),
    mem_occurringLabels hlabel' (List.mem_map_of_mem hx)⟩

variable [Numeric α]

/-- A cell of a categorical variable has a rank. -/
theorem Column.isSome_rankAt {c : Column α} (hscale : c.var.scale.isCategorical = true)
    (hchecked : ∀ cell ∈ c.cells, c.var.checkCell cell = .ok ()) {row : Nat}
    (hrow : row < c.cells.length) : (c.rankAt row).isSome = true := by
  obtain ⟨label, hlabel, hcell⟩ :=
    Variable.exists_label_of_checkCell hscale (hchecked _ (List.getElem_mem hrow))
  rw [Column.rankAt, List.getElem?_eq_getElem hrow, hcell]
  exact (c.var.isSome_rankOf label).2 hlabel

omit [Numeric α] in
theorem Column.exists_label_of_rankAt {c : Column α} {row rank : Nat}
    (h : c.rankAt row = some rank) : ∃ label, c.var.rankOf label = some rank := by
  obtain ⟨cell, -, h⟩ := Option.bind_eq_some_iff.1 h
  obtain ⟨label, -, h⟩ := Option.bind_eq_some_iff.1 h
  exact ⟨label, h⟩

end Contingency

/-! ### Comparisons -/

/-- The number by which a row is ordered in a column of a dataset. -/
def Dataset.keyAt [Numeric α] (d : Dataset α) (name : String) (row : Nat) : Option α :=
  (d.columns.get? name).bind (·.keyAt row)

/-- Every one of some rows contributes exactly one observation to a comparison: it belongs to
exactly one group, has one place in both variables of a correlation, or is counted once in a
table. -/
def PairProperties.ObservesEachRowOnce [Numeric α] (d : Dataset α) (rows : List Nat)
    (p : PairProperties α) : Prop :=
  match p.samples with
  | .groups _ samples | .paired _ samples =>
    ∃ outcome ∈ p.names, TakesEachRowOnce (d.keyAt outcome) rows samples
  | .bivariate x y =>
    x.map some = rows.map (d.keyAt p.explanatory) ∧ y.map some = rows.map (d.keyAt p.response)
  | .contingency _ _ table =>
    ∃ counts : List (List Nat),
      table = counts.map (List.map Numeric.ofNat) ∧ counts.flatten.sum = rows.length

section Comparisons

variable {d : Dataset α} {rows : List Nat} {e r factor outcome : AnnotatedVariable α}
  {f o : Column α} {kind : StudyKind} {p base : PairProperties α}

/-- A factor has labels, and its outcome an order. -/
theorem scales_of_groups (h : layoutOf kind e r = .groups factor outcome) :
    factor.var.scale.isCategorical = true ∧ outcome.var.scale.isRankable = true := by
  rw [layoutOf.eq_def] at h
  cases he : e.var.scale <;> cases hr : r.var.scale <;> rw [he, hr] at h <;> cases kind <;>
    cases h <;> rw [he, hr] <;> exact ⟨rfl, rfl⟩

theorem scales_of_correlation (h : layoutOf kind e r = .correlation) :
    e.var.scale.isRankable = true ∧ r.var.scale.isRankable = true := by
  rw [layoutOf.eq_def] at h
  cases he : e.var.scale <;> cases hr : r.var.scale <;> rw [he, hr] at h <;> cases kind <;>
    first | exact ⟨rfl, rfl⟩ | cases h

theorem scales_of_contingency (h : layoutOf kind e r = .contingency) :
    e.var.scale.isCategorical = true ∧ r.var.scale.isCategorical = true := by
  rw [layoutOf.eq_def] at h
  cases he : e.var.scale <;> cases hr : r.var.scale <;> rw [he, hr] at h <;> cases kind <;>
    first | exact ⟨rfl, rfl⟩ | cases h

variable [Numeric α]

theorem AnnotatedVariable.TakenFrom.keyAt_eq (hf : e.TakenFrom d rows f) :
    d.keyAt e.var.name = f.keyAt := by
  funext row
  rw [Dataset.keyAt, hf.get?_name]
  rfl

/-- Variables with an order can be read at all their rows. -/
theorem AnnotatedVariable.TakenFrom.isSome_keyAt (hd : d.WellFormed) (hchecked : d.Checked)
    (hrows : d.AscendingRows rows) (hf : e.TakenFrom d rows f)
    (hscale : e.var.scale.isRankable = true) : ∀ row ∈ rows, (f.keyAt row).isSome = true := by
  intro row hrow
  rw [← hf.var_eq] at hscale
  exact Column.isSome_keyAt hscale (hchecked _ f hf.get?_eq)
    (hrows.lt_length hd hf.get?_eq row hrow)

theorem AnnotatedVariable.TakenFrom.isSome_rankAt (hd : d.WellFormed) (hchecked : d.Checked)
    (hrows : d.AscendingRows rows) (hf : e.TakenFrom d rows f)
    (hscale : e.var.scale.isCategorical = true) : ∀ row ∈ rows, (f.rankAt row).isSome = true := by
  intro row hrow
  rw [← hf.var_eq] at hscale
  exact Column.isSome_rankAt hscale (hchecked _ f hf.get?_eq)
    (hrows.lt_length hd hf.get?_eq row hrow)

variable [Tails α]

/-- The samples of independent groups are the readings of the outcome. -/
theorem samples_groupProperties [NumberText α] (hd : d.WellFormed) (hrows : d.AscendingRows rows)
    (hf : factor.TakenFrom d rows f) (ho : outcome.TakenFrom d rows o)
    (hread : ∀ row ∈ rows, (o.keyAt row).isSome = true)
    (h : groupProperties d factor outcome false base = .ok p) :
    p.samples = .groups (f.occurring rows) (samplesOf f o rows) ∧ p.names = base.names := by
  rw [groupProperties, groupsOf_eq_ok hd hrows hf ho hread, ok_bind] at h
  obtain ⟨samples, hsamples, h⟩ := bind_eq_ok_iff.1 h
  obtain rfl := Except.ok.inj hsamples
  obtain rfl := Except.ok.inj h
  refine ⟨?_, rfl⟩
  rw [List.map_map, List.map_map, List.map_map]
  exact congrArg (fun labels => Samples.groups labels _) (List.map_id _)

/-- Whether a comparison is within subjects is known before its groups are. -/
theorem paired_groupProperties [NumberText α] {paired : Bool}
    (h : groupProperties d factor outcome paired base = .ok p) : p.paired = base.paired := by
  obtain ⟨_, -, h⟩ := bind_eq_ok_iff.1 h
  obtain ⟨_, -, h⟩ := bind_eq_ok_iff.1 h
  obtain rfl := Except.ok.inj h
  rfl

/-- The two samples of a correlation are all readings of its variables. -/
theorem observesEachRowOnce_correlation (hd : d.WellFormed) (hchecked : d.Checked)
    (hrows : d.AscendingRows rows) (hf : e.TakenFrom d rows f) (ho : r.TakenFrom d rows o)
    (hscales : e.var.scale.isRankable = true ∧ r.var.scale.isRankable = true)
    {base : PairProperties α}
    (hnames : base.explanatory = e.var.name ∧ base.response = r.var.name) :
    (correlationProperties e r base).ObservesEachRowOnce d rows := by
  show _ = rows.map (d.keyAt base.explanatory) ∧ _ = rows.map (d.keyAt base.response)
  rw [hnames.1, hnames.2, hf.keyAt_eq, ho.keyAt_eq, alignedKeys_eq hd hrows hf ho]
  exact map_sideBySide (hf.isSome_keyAt hd hchecked hrows hscales.1)
    (ho.isSome_keyAt hd hchecked hrows hscales.2)

omit [Tails α] in
/-- The cells of a contingency table sum up to the rows. -/
theorem observesEachRowOnce_contingency (hd : d.WellFormed) (hchecked : d.Checked)
    (hrows : d.AscendingRows rows) (hf : e.TakenFrom d rows f) (ho : r.TakenFrom d rows o)
    (hscales : e.var.scale.isCategorical = true ∧ r.var.scale.isCategorical = true) :
    (contingencyProperties e r base).ObservesEachRowOnce d rows := by
  refine ⟨contingencyCounts e.var r.var (alignedRanks e r), ?_, ?_⟩
  · simp [contingencyCounts, Function.comp_def]
  · rw [sum_contingencyCounts, alignedRanks_eq hd hrows hf ho,
      length_sideBySide (hf.isSome_rankAt hd hchecked hrows hscales.1)
        (ho.isSome_rankAt hd hchecked hrows hscales.2)]
    intro x hx
    rw [alignedRanks_eq hd hrows hf ho] at hx
    obtain ⟨row, -, hrow⟩ := List.mem_filterMap.1 hx
    obtain ⟨i, hi, hrow⟩ := Option.bind_eq_some_iff.1 hrow
    obtain ⟨j, hj, rfl⟩ := Option.map_eq_some_iff.1 hrow
    rw [← hf.var_eq, ← ho.var_eq]
    exact ⟨Column.exists_label_of_rankAt hi, Column.exists_label_of_rankAt hj⟩

omit [Tails α] in
/-- The groups of a comparison take each row once exactly if no label occurs that is declared
twice. -/
theorem observesEachRowOnce_groups (hd : d.WellFormed) (hchecked : d.Checked)
    (hrows : d.AscendingRows rows) (hf : factor.TakenFrom d rows f)
    (ho : outcome.TakenFrom d rows o)
    (hscales : factor.var.scale.isCategorical = true ∧ outcome.var.scale.isRankable = true)
    (hsamples : p.samples = .groups (f.occurring rows) (samplesOf f o rows))
    (hname : outcome.var.name ∈ p.names) :
    p.ObservesEachRowOnce d rows ↔ (f.occurring rows).Nodup := by
  have hscale : f.var.scale.isCategorical = true := hf.var_eq ▸ hscales.1
  have hread := ho.isSome_keyAt hd hchecked hrows hscales.2
  rw [PairProperties.ObservesEachRowOnce, hsamples]
  constructor
  · rintro ⟨_, -, htakes⟩
    exact nodup_of_takesEachRowOnce hscale (hchecked _ f hf.get?_eq)
      (hrows.lt_length hd hf.get?_eq) hrows.nodup hread htakes
  · intro hnodup
    refine ⟨outcome.var.name, hname, ?_⟩
    rw [ho.keyAt_eq]
    exact takesEachRowOnce_of_nodup hscale (hchecked _ f hf.get?_eq)
      (hrows.lt_length hd hf.get?_eq) hrows.nodup hread hnodup

theorem getD_eq_false {x : Option Bool} (h : x ≠ some true) : x.getD false = false := by
  rcases x with _ | (_ | _)
  · rfl
  · rfl
  · exact absurd rfl h

/-- The labels of the groups of a comparison are those labels of one of its variables that occur at
the rows, as often as they are declared; every row contributes exactly one observation exactly if
they are different. -/
theorem observesEachRowOnce_pairProperties [NumberText α] {design : Design α} {hasRoles : Bool}
    (hd : d.WellFormed) (hchecked : d.Checked) (hrows : d.AscendingRows rows)
    (he : e.TakenAt d rows) (hr : r.TakenAt d rows)
    (h : pairProperties d design kind hasRoles e r = .ok p) (hpaired : p.paired ≠ some true) :
    (∀ labels samples, p.samples = .groups labels samples →
      ∃ f : Column α, d.columns.get? f.var.name = some f ∧ f.var.name ∈ p.names ∧
        labels = f.occurring rows) ∧
    (p.ObservesEachRowOnce d rows ↔
      ∀ labels samples, p.samples = .groups labels samples → labels.Nodup) := by
  obtain ⟨c, hc⟩ := he.exists_takenFrom
  obtain ⟨c', hc'⟩ := hr.exists_takenFrom
  rw [pairProperties] at h
  cases hlayout : layoutOf kind e r with
  | correlation =>
      rw [hlayout] at h
      obtain rfl := Except.ok.inj h
      refine ⟨fun _ _ hgroups => ?_, iff_of_true (observesEachRowOnce_correlation hd hchecked hrows
        hc hc' (scales_of_correlation hlayout) ⟨rfl, rfl⟩) fun _ _ hgroups => ?_⟩ <;> cases hgroups
  | contingency =>
      rw [hlayout] at h
      obtain rfl := Except.ok.inj h
      refine ⟨fun _ _ hgroups => ?_, iff_of_true (observesEachRowOnce_contingency hd hchecked hrows
        hc hc' (scales_of_contingency hlayout)) fun _ _ hgroups => ?_⟩ <;> cases hgroups
  | groups factor outcome =>
      rw [hlayout] at h
      rw [paired_groupProperties h] at hpaired
      dsimp only at h
      rw [getD_eq_false hpaired] at h
      have htaken : factor.TakenAt d rows ∧ outcome.TakenAt d rows ∧
          factor.var.name ∈ [e.var.name, r.var.name] ∧
            outcome.var.name ∈ [e.var.name, r.var.name] := by
        rcases eq_or_eq_of_layoutOf hlayout with ⟨rfl, rfl⟩ | ⟨rfl, rfl⟩
        · exact ⟨he, hr, by simp, by simp⟩
        · exact ⟨hr, he, by simp, by simp⟩
      obtain ⟨hfactor, houtcome, hfactorName, houtcomeName⟩ := htaken
      obtain ⟨f, hf⟩ := hfactor.exists_takenFrom
      obtain ⟨o, ho⟩ := houtcome.exists_takenFrom
      have hscales := scales_of_groups hlayout
      obtain ⟨hsamples, hnames⟩ := samples_groupProperties hd hrows hf ho
        (ho.isSome_keyAt hd hchecked hrows hscales.2) h
      have honly : ∀ labels samples, p.samples = .groups labels samples →
          labels = f.occurring rows := by
        rintro labels samples hgroups
        rw [hsamples] at hgroups
        exact (Samples.groups.inj hgroups).1.symm
      refine ⟨fun labels samples hgroups => ⟨f, hf.get?_eq, ?_, honly labels samples hgroups⟩, ?_⟩
      · rw [hnames, hf.var_eq]
        exact hfactorName
      · rw [observesEachRowOnce_groups hd hchecked hrows hf ho hscales hsamples
          (hnames ▸ houtcomeName)]
        constructor
        · intro hnodup labels samples hgroups
          rwa [honly labels samples hgroups]
        · exact fun h => h _ _ hsamples

/-- **When every row contributes exactly one observation.**  In a comparison that is not within
subjects, each row that all operands have is observed exactly once, unless it is a comparison of
groups and one of the labels that occur is declared twice: then there is a group for every
declaration, and the rows of the label belong to each of them. -/
theorem observesEachRowOnce_iff [NumberText α] {ctx : Context α} {operands : List (Expression α)}
    {bindings : List (Binding α)} {design : Design α} {c : Combination α} (hd : d.Built)
    (hbindings : operands.mapM (evaluateBinding d ctx) = .ok bindings)
    (hliteral : ∀ b ∈ bindings, b.isLiteral = false)
    (hc : combine d (bindings.map (·.restrict (Binding.commonRows bindings))) design = .ok c)
    (hp : p ∈ c.pairs) (hpaired : p.paired ≠ some true) :
    (∀ labels samples, p.samples = .groups labels samples →
      ∃ f : Column α, d.columns.get? f.var.name = some f ∧ f.var.name ∈ p.names ∧
        labels = f.occurring (Binding.commonRows bindings)) ∧
    (p.ObservesEachRowOnce d (Binding.commonRows bindings) ↔
      ∀ labels samples, p.samples = .groups labels samples → labels.Nodup) := by
  have hdrawn : ∀ b ∈ bindings, ∃ source, b.DrawnFrom d source := by
    intro b hb
    obtain ⟨e, -, he⟩ := exists_of_mem_mapM hbindings hb
    exact ⟨e.source, drawnFrom_of_evaluate (evaluateBinding_eq_ok_iff.1 he)⟩
  have htaken := Binding.takenAt_commonRows hd.wellFormed hdrawn hliteral
  obtain ⟨hasRoles, compared, -, hvars, hcompared, hpairs⟩ := combine_eq_ok_iff.1 hc
  obtain ⟨⟨e, r⟩, hmem, hpair⟩ := exists_of_mem_mapM hpairs hp
  have hannotated : ∀ a ∈ c.vars, a.TakenAt d (Binding.commonRows bindings) := by
    intro a ha
    obtain ⟨b, hb, hab⟩ := exists_of_mem_mapM hvars ha
    exact takenAt_of_annotate hab (htaken b hb)
  obtain ⟨he, hr⟩ := mem_of_comparisons hcompared _ hmem
  exact observesEachRowOnce_pairProperties hd.wellFormed hd.checked
    (Binding.ascendingRows_commonRows hdrawn) (hannotated e he) (hannotated r hr) hpair hpaired

end Comparisons

/-- The scores of two trials, if they were not related, would be observed each once. -/
theorem observesEachRowOnce_trials :
    let ctx : Context Float := ⟨.standard, some (.experiment ["trial"] ["score"]), ⟨∅, ∅⟩⟩
    let operands : List (Expression Float) := [.column "trial", .column "score"]
    ∃ bindings c p, operands.mapM (evaluateBinding trials ctx) = .ok bindings ∧
      combine trials (bindings.map (·.restrict (Binding.commonRows bindings)))
        (.experiment ["trial"] ["score"]) = .ok c ∧
      c.pairs = [p] ∧ p.paired = some false ∧
      p.samples = .groups ["first", "second"] [[1, 2, 4], [3, 5]] ∧
      p.ObservesEachRowOnce trials [0, 1, 2, 3, 4] := by
  intro ctx operands
  obtain ⟨bindings, c, p, hbindings, hliteral, hrows, hc, hpairs, hpaired, hsamples⟩ :
      ∃ bindings c p, operands.mapM (evaluateBinding trials ctx) = .ok bindings ∧
        (∀ b ∈ bindings, b.isLiteral = false) ∧ Binding.commonRows bindings = [0, 1, 2, 3, 4] ∧
        combine trials (bindings.map (·.restrict (Binding.commonRows bindings)))
          (.experiment ["trial"] ["score"]) = .ok c ∧
        c.pairs = [p] ∧ p.paired = some false ∧
        p.samples = .groups ["first", "second"] [[1, 2, 4], [3, 5]] :=
    ⟨_, _, _, rfl, by simp [Binding.isLiteral], rfl, rfl, rfl, rfl, rfl⟩
  have hp : p ∈ c.pairs := by
    rw [hpairs]
    exact List.mem_singleton_self p
  have hdifferent : ∀ labels samples, p.samples = .groups labels samples → labels.Nodup := by
    intro labels samples hgroups
    rw [hsamples] at hgroups
    obtain ⟨rfl, rfl⟩ := Samples.groups.inj hgroups
    decide
  refine ⟨bindings, c, p, hbindings, hc, hpairs, hpaired, hsamples, ?_⟩
  rw [← hrows]
  have hbetween : p.paired ≠ some true := by
    rw [hpaired]
    decide
  exact (observesEachRowOnce_iff built_trials hbindings hliteral hc hp hbetween).2.2 hdifferent

/-! ### A label that is declared twice -/

/-- The columns of four scores under two conditions, the first of which is declared twice. -/
def twiceDeclaredColumns : List (Column Float) := [
  ⟨⟨"cond", .nominal, some ["a", "a", "b"]⟩, [.text "a", .text "a", .text "b", .text "b"]⟩,
  ⟨⟨"score", .ratio, none⟩, [.real 1, .real 2, .real 3, .real 5]⟩]

/-- Both scores of the first condition belong to two groups, so that six scores are compared of
which there are four. -/
theorem not_observesEachRowOnce_twiceDeclared :
    let ctx : Context Float := ⟨.standard, some (.experiment ["cond"] ["score"]), ⟨∅, ∅⟩⟩
    let operands : List (Expression Float) := [.column "cond", .column "score"]
    ∃ d bindings c p, Dataset.ofColumns twiceDeclaredColumns = .ok d ∧
      operands.mapM (evaluateBinding d ctx) = .ok bindings ∧
      Binding.commonRows bindings = [0, 1, 2, 3] ∧
      combine d (bindings.map (·.restrict (Binding.commonRows bindings)))
        (.experiment ["cond"] ["score"]) = .ok c ∧
      c.pairs = [p] ∧ p.paired = some false ∧
      p.samples = .groups ["a", "a", "b"] [[1, 2], [1, 2], [3, 5]] ∧
      ¬p.ObservesEachRowOnce d (Binding.commonRows bindings) := by
  intro ctx operands
  obtain ⟨d, bindings, c, p, hd, hbindings, hrows, hc, hpairs, hpaired, hsamples⟩ :
      ∃ d bindings c p, Dataset.ofColumns twiceDeclaredColumns = .ok d ∧
        operands.mapM (evaluateBinding d ctx) = .ok bindings ∧
        Binding.commonRows bindings = [0, 1, 2, 3] ∧
        combine d (bindings.map (·.restrict (Binding.commonRows bindings)))
          (.experiment ["cond"] ["score"]) = .ok c ∧
        c.pairs = [p] ∧ p.paired = some false ∧
        p.samples = .groups ["a", "a", "b"] [[1, 2], [1, 2], [3, 5]] :=
    ⟨_, _, _, _, rfl, rfl, rfl, rfl, rfl, rfl, rfl⟩
  refine ⟨d, bindings, c, p, hd, hbindings, hrows, hc, hpairs, hpaired, hsamples, fun h => ?_⟩
  rw [PairProperties.ObservesEachRowOnce, hsamples, hrows] at h
  obtain ⟨outcome, -, htakes⟩ := h
  cases htakes.sum_length

end StudyAnalysis
