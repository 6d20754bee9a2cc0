/-
**Data that are measured in other units.**

The numbers of a dataset can be measured in other units, those of each variable in its own, while
texts stay as they are.  This module follows such a change through the preparation of a hypothesis
over plain variables.  Which rows have a label stays the same, so the groups of a factor have the
same rows and their outcome is measured anew; participants are identified as before; the points of a
correlation are measured anew on both axes; and cross-tabulations do not change.

Main definitions:

* `StudyAnalysis.Dataset.mapCells`, `StudyAnalysis.Binding.mapCells`,
  `StudyAnalysis.AnnotatedVariable.mapCells` — data with their cells changed;
* `StudyAnalysis.Exact.InUnit` — a change of cells that measures numbers in another unit.

Main results:

* `StudyAnalysis.Exact.select_mapCells`, `StudyAnalysis.Exact.ofColumn_mapCells` — **what is
  selected by labels is the same**;
* `StudyAnalysis.Exact.exists_groupRows_mapCells` — **all groups of a factor are measured in the
  same unit**;
* `StudyAnalysis.Exact.exists_alignedKeys_mapCells` — the points of a correlation;
* `StudyAnalysis.Exact.runsAlike_pairProperties`, `StudyAnalysis.Exact.runsAlike_combine` —
  **comparisons differ in the units only, or they cannot be prepared for the same reason**.
-/

import StudyAnalysis.Proofs.Hypothesis.RescaledComparisons
import StudyAnalysis.Proofs.Hypothesis.Relabelling

set_option autoImplicit false
set_option relaxedAutoImplicit false

namespace StudyAnalysis

open Fallible

/-! ### Changing cells -/

section Cells

variable {α : Type}

/-- A column with its cells changed as its variable says. -/
def Column.mapCells (G : Variable → Cell α → Cell α) (c : Column α) : Column α :=
  { c with cells := c.cells.map (G c.var) }

/-- A dataset with the cells of each column changed as its variable says. -/
def Dataset.mapCells (G : Variable → Cell α → Cell α) (d : Dataset α) : Dataset α :=
  { d with columns := d.columns.map (·.mapCells G) }

/-- How the cells of a binding change; literals stay. -/
def Binding.cellMap (G : Variable → Cell α → Cell α) (b : Binding α) : Cell α → Cell α :=
  b.var.elim id G

/-- A binding with its cells changed as its variable says. -/
def Binding.mapCells (G : Variable → Cell α → Cell α) (b : Binding α) : Binding α :=
  { b with entries := b.entries.map (Prod.map id (b.cellMap G)) }

variable {G : Variable → Cell α → Cell α} {d : Dataset α} {b : Binding α}

theorem Dataset.column_mapCells (name : String) :
    (d.mapCells G).column name = (d.column name).map (·.mapCells G) := by
  rw [column, column, mapCells, NameMap.get?_map]
  cases d.columns.get? name <;> rfl

theorem Dataset.findVariable_mapCells (name : String) :
    (d.mapCells G).findVariable name = d.findVariable name := by
  rw [findVariable, findVariable, column_mapCells]
  cases d.column name <;> rfl

/-- The cells that identify participants are those of another column. -/
theorem Dataset.keyValue_mapCells
    (hkey : ∀ name c, d.key = some name → d.columns.get? name = some c → G c.var = id) (row : Nat) :
    (d.mapCells G).keyValue row = d.keyValue row := by
  have hsame : (d.mapCells G).key = d.key := rfl
  rw [keyValue, keyValue, hsame]
  cases hname : d.key with
  | none => rfl
  | some name =>
      show ((d.columns.map (·.mapCells G)).get? name >>= fun c => c.cells[row]?) = _
      rw [NameMap.get?_map]
      cases hc : d.columns.get? name with
      | none => simp [hc]
      | some c => simp [hc, Column.mapCells, hkey name c hname hc]

namespace Binding

@[simp] theorem rows_mapCells : (b.mapCells G).rows = b.rows := by
  rw [rows, rows, mapCells, List.map_map]
  rfl

theorem commonRows_mapCells (bindings : List (Binding α)) :
    commonRows (bindings.map (·.mapCells G)) = commonRows bindings := by
  cases bindings with
  | nil => rfl
  | cons b rest =>
      rw [List.map_cons, commonRows, commonRows]
      simp only [List.all_map, Function.comp_def, rows_mapCells]

theorem restrict_mapCells (keep : List Nat) :
    (b.mapCells G).restrict keep = (b.restrict keep).mapCells G := by
  rw [restrict, restrict, mapCells, mapCells, List.filter_map]
  rfl

/-- Restriction to common rows commutes with the change of cells. -/
theorem map_restrict_mapCells (bindings : List (Binding α)) :
    (bindings.map (·.mapCells G)).map (·.restrict (commonRows (bindings.map (·.mapCells G)))) =
      (bindings.map (·.restrict (commonRows bindings))).map (·.mapCells G) := by
  rw [commonRows_mapCells, List.map_map, List.map_map]
  exact List.map_congr_left fun b _ => restrict_mapCells _

theorem search_map (f : Cell α → Cell α) (row : Nat) (entries : Series α) :
    search row (entries.map (Prod.map id f)) = (search row entries).map f := by
  fun_induction search row entries with
  | case1 entries h =>
      rw [search, dif_pos (by rwa [List.length_map]), List.head?_map]
      cases entries.head? with
      | none => rfl
      | some e =>
          simp only [Option.map_some, Option.filter_some, Prod.map_fst, id]
          split <;> rfl
  | case2 entries h hhalf hlt ih =>
      rw [search, dif_neg (by rwa [List.length_map])]
      simp only [List.length_map, List.getElem_map, Prod.map_fst, id, if_pos hlt, ← List.map_take,
        ih]
  | case3 entries h hhalf hlt ih =>
      rw [search, dif_neg (by rwa [List.length_map])]
      simp only [List.length_map, List.getElem_map, Prod.map_fst, id, if_neg hlt, ← List.map_drop,
        ih]

/-- The changed cell is found at the same row. -/
theorem cellAt_mapCells (row : Nat) :
    (b.mapCells G).cellAt row = (b.cellAt row).map (b.cellMap G) :=
  search_map _ row b.entries

end Binding

variable [Numeric α] [Tails α]

/-- A bound variable with its cells changed, and with its properties computed anew. -/
def AnnotatedVariable.mapCells (G : Variable → Cell α → Cell α) (a : AnnotatedVariable α) :
    AnnotatedVariable α :=
  { a with
    binding := a.binding.mapCells G
    properties := variableProperties (a.binding.mapCells G) a.var }

theorem annotate_mapCells {design : Design α} {kind : StudyKind} (b : Binding α) :
    annotate design kind (b.mapCells G) = (annotate design kind b).map (·.mapCells G) := by
  obtain ⟨entries, var⟩ := b
  cases var <;> rfl

end Cells

namespace Exact

open Numeric

/-! ### Cells in another unit -/

/-- A change of cells that measures all numbers in another unit and leaves texts as they are. -/
structure InUnit (k : UnitChange) (g : Cell ℝ → Cell ℝ) : Prop where
  text (s : String) : g (.text s) = .text s
  number? (cell : Cell ℝ) : (g cell).number? = cell.number?.map k.measure

theorem inUnit_id : InUnit .unchanged id where
  text _ := rfl
  number? cell := by
    have hid : UnitChange.unchanged.measure = id := funext UnitChange.measure_unchanged
    rw [hid, Option.map_id]
    rfl

theorem text?_eq_none_iff {cell : Cell ℝ} :
    cell.text? = none ↔ cell.number?.isSome = true := by
  cases cell <;> simp [Cell.text?, Cell.number?]

theorem compare_label (v : Variable) (cell : Cell ℝ) (label : String) :
    v.compare cell .eq (.text label) = .ok (cell.agrees (.text label) == true) := rfl

namespace InUnit

variable {k : UnitChange} {g : Cell ℝ → Cell ℝ} (h : InUnit k g)

include h

/-- What holds a number does so in every unit. -/
theorem text?_eq (cell : Cell ℝ) : (g cell).text? = cell.text? := by
  cases cell with
  | text s => rw [h.text]
  | int _ | real _ =>
      refine text?_eq_none_iff.2 ?_
      rw [h.number?]
      rfl

theorem agrees_text_eq (cell : Cell ℝ) (label : String) :
    (g cell).agrees (.text label) = cell.agrees (.text label) := by
  rw [Cell.agrees_text, Cell.agrees_text, h.text?_eq]

/-- The numbers by which a variable is ordered are measured in one unit; ranks have none. -/
theorem exists_orderKey (v : Variable) :
    ∃ k' : UnitChange, ∀ cell, v.orderKey (g cell) = (v.orderKey cell).map k'.measure := by
  cases hscale : v.scale with
  | nominal =>
      refine ⟨.unchanged, fun cell => ?_⟩
      rw [Variable.orderKey, Variable.orderKey, hscale]
      rfl
  | ordinal =>
      have hid : UnitChange.unchanged.measure = id := funext UnitChange.measure_unchanged
      refine ⟨.unchanged, fun cell => ?_⟩
      rw [Variable.orderKey, Variable.orderKey, hscale, hid, Option.map_id]
      dsimp only
      rw [h.text?_eq]
      rfl
  | interval | ratio =>
      refine ⟨k, fun cell => ?_⟩
      rw [Variable.orderKey, Variable.orderKey, hscale]
      exact h.number? cell

end InUnit

section Data

variable {G : Variable → Cell ℝ → Cell ℝ} (hG : ∀ v, ∃ k, InUnit k (G v)) {d : Dataset ℝ}

include hG

theorem exists_inUnit_cellMap (b : Binding ℝ) : ∃ k, InUnit k (b.cellMap G) := by
  rw [Binding.cellMap]
  cases b.var with
  | none => exact ⟨.unchanged, inUnit_id⟩
  | some v => exact hG v

/-! ### Selections by labels -/

/-- A condition that asks for a label. -/
def AsksForLabel (c : Condition ℝ) : Prop :=
  c.comparison = .eq ∧ ∃ label, c.value = .text label

/-- **The same rows have a label.** -/
theorem satisfies_mapCells (row : ℕ) {filters : List (Column ℝ × Condition ℝ)}
    (hfilters : ∀ f ∈ filters, AsksForLabel f.2) :
    Dataset.satisfies row (filters.map fun f => (f.1.mapCells G, f.2)) =
      Dataset.satisfies row filters := by
  induction filters with
  | nil => rfl
  | cons f rest ih =>
      obtain ⟨hf, hrest⟩ := List.forall_mem_cons.1 hfilters
      obtain ⟨heq, label, hlabel⟩ := hf
      obtain ⟨k, hk⟩ := hG f.1.var
      rw [List.map_cons, Dataset.satisfies, Dataset.satisfies, ih hrest]
      simp only [Column.mapCells, List.getElem?_map]
      cases f.1.cells[row]? with
      | none => rfl
      | some cell =>
          simp only [Option.map_some, heq, hlabel, compare_label, hk.agrees_text_eq]

theorem select_mapCells {name : String} {c : Column ℝ} (hc : d.column name = .ok c)
    {conditions : List (Condition ℝ)} (hconditions : ∀ x ∈ conditions, AsksForLabel x) :
    (d.mapCells G).select name conditions =
      (d.select name conditions).map (List.map (Prod.map id (G c.var))) := by
  have hfilters : (conditions.mapM fun x : Condition ℝ => do
        return (← (d.mapCells G).column x.column, x)) =
      (conditions.mapM fun x : Condition ℝ => do return (← d.column x.column, x)).map
        (List.map fun f : Column ℝ × Condition ℝ => (f.1.mapCells G, f.2)) := by
    refine mapM_eq_map_mapM fun x _ => ?_
    rw [Dataset.column_mapCells]
    cases d.column x.column <;> rfl
  have hrows : (d.mapCells G).rowCount = d.rowCount := rfl
  rw [Dataset.select, Dataset.select, Dataset.column_mapCells, hc, hfilters, hrows]
  cases hmapM : (conditions.mapM fun x : Condition ℝ => do return (← d.column x.column, x)) with
  | error err => rfl
  | ok filters =>
      have hlabels : ∀ f ∈ filters, AsksForLabel f.2 := by
        intro f hf
        obtain ⟨x, hx, hfx⟩ := exists_of_mem_mapM hmapM hf
        obtain ⟨col, -, hcol⟩ := bind_eq_ok_iff.1 hfx
        obtain rfl := Except.ok.inj hcol
        exact hconditions x hx
      have hcells : ((c.mapCells G).cells.take d.rowCount).zipIdx =
          ((c.cells.take d.rowCount).zipIdx).map (Prod.map (G c.var) id) := by
        rw [Column.mapCells, ← List.map_take, List.zipIdx_map]
      simp only [Except.map, ok_bind, satisfies_mapCells hG _ hlabels, hcells, filterM_map,
        Prod.map_snd, id]
      cases ((c.cells.take d.rowCount).zipIdx).filterM
          (fun e => Dataset.satisfies e.2 filters) with
      | error err => rfl
      | ok kept =>
          refine congrArg Except.ok ?_
          rw [List.map_map, List.map_map]
          rfl

theorem ofColumn_mapCells (name : String) :
    Binding.ofColumn (d.mapCells G) name = (Binding.ofColumn d name).map (·.mapCells G) := by
  rw [Binding.ofColumn, Binding.ofColumn, Dataset.findVariable_mapCells]
  cases hc : d.column name with
  | error err => rw [Dataset.select, Dataset.select, Dataset.column_mapCells, hc]; rfl
  | ok c =>
      rw [select_mapCells hG hc (List.forall_mem_nil _), Dataset.findVariable, hc]
      cases d.select name [] <;> rfl

/-! ### Groups -/

variable {factor outcome e r : AnnotatedVariable ℝ} [Tails ℝ]

/-- **All groups of a factor are measured in the same unit.** -/
theorem exists_groupRows_mapCells (factor outcome : AnnotatedVariable ℝ) :
    ∃ k : UnitChange, ∀ label,
      groupRows (d.mapCells G) (factor.mapCells G) (outcome.mapCells G) label =
        (groupRows d factor outcome label).map (List.map (Prod.map id k.measure)) := by
  have hrows : (factor.mapCells G).binding.rows = factor.binding.rows := Binding.rows_mapCells
  cases hc : d.column outcome.var.name with
  | error err =>
      refine ⟨.unchanged, fun label => ?_⟩
      have hname : (outcome.mapCells G).var.name = outcome.var.name := rfl
      rw [groupRows, groupRows, Dataset.select, Dataset.select, hname, Dataset.column_mapCells, hc]
      rfl
  | ok c =>
      -- cells are changed as the variable of their column says and read as that of the outcome says
      obtain ⟨k, hk⟩ := hG c.var
      obtain ⟨k', hk'⟩ := hk.exists_orderKey outcome.var
      refine ⟨k', fun label => ?_⟩
      let condition : Condition ℝ := ⟨factor.var.name, .eq, .text label⟩
      have hselect : (d.mapCells G).select outcome.var.name [condition] = _ :=
        select_mapCells hG hc (List.forall_mem_singleton.2 ⟨rfl, label, rfl⟩)
      rw [groupRows, groupRows]
      show ((d.mapCells G).select outcome.var.name [condition] >>= _) =
        Except.map _ (d.select outcome.var.name [condition] >>= _)
      rw [hselect, hrows]
      cases d.select outcome.var.name [condition] with
      | error err => rfl
      | ok series =>
          refine congrArg Except.ok ?_
          rw [List.filter_map, List.filterMap_map, List.map_filterMap]
          refine List.filterMap_congr fun entry _ => ?_
          show (outcome.var.orderKey (G c.var entry.2)).map _ = _
          rw [hk', Option.map_map, Option.map_map]
          rfl

theorem exists_groupsOf_mapCells (factor outcome : AnnotatedVariable ℝ) :
    ∃ k : UnitChange, groupsOf (d.mapCells G) (factor.mapCells G) (outcome.mapCells G) =
      (groupsOf d factor outcome).map
        (List.map (Prod.map id (List.map (Prod.map id k.measure)))) := by
  obtain ⟨k, hk⟩ := exists_groupRows_mapCells hG (d := d) factor outcome
  have hgroups : (factor.var.labels.mapM fun label => do
        return (label, ← groupRows (d.mapCells G) (factor.mapCells G) (outcome.mapCells G) label)) =
      (factor.var.labels.mapM fun label => do
        return (label, ← groupRows d factor outcome label)).map
        (List.map (Prod.map id (List.map (Prod.map id k.measure)))) := by
    refine mapM_eq_map_mapM fun label _ => ?_
    rw [hk]
    cases groupRows d factor outcome label <;> rfl
  refine ⟨k, ?_⟩
  rw [groupsOf, groupsOf]
  show (factor.var.labels.mapM _ >>= _) = _
  rw [hgroups]
  cases (factor.var.labels.mapM fun label => do
    return (label, ← groupRows d factor outcome label)) with
  | error err => rfl
  | ok groups =>
      refine congrArg Except.ok ?_
      rw [List.filter_map]
      simp only [Function.comp_def, Prod.map_snd, List.isEmpty_map]

end Data

/-! ### Related groups -/

section Related

variable [NumberText ℝ] {d d' : Dataset ℝ} (f : ℝ → ℝ)

theorem identified_map (hkey : ∀ row, d'.keyValue row = d.keyValue row) (group : RowValues ℝ) :
    identified d' (group.map (Prod.map id f)) = (identified d group).map (Prod.map id f) := by
  rw [identified, identified, List.filterMap_map, List.map_filterMap]
  refine List.filterMap_congr fun entry _ => ?_
  show (d'.keyValue entry.1).map _ = _
  rw [hkey, Option.map_map]
  rfl

omit [NumberText ℝ] in
theorem find_map (id' : String) (group : List (String × ℝ)) :
    NameMap.find id' (group.map (Prod.map id f)) = (NameMap.find id' group).map f :=
  NameMap.get?_map f ⟨group⟩ id'

omit [NumberText ℝ] in
/-- **The same participants take part in all groups.** -/
theorem participants_map (groups : List (List (String × ℝ))) :
    participants (groups.map (List.map (Prod.map id f))) = participants groups := by
  have hfirst : ((groups.map (List.map (Prod.map id f))).headD []).map (·.1) =
      (groups.headD []).map (·.1) := by
    cases groups with
    | nil => rfl
    | cons g rest => exact List.map_map
  rw [participants, participants, hfirst]
  simp only [List.all_map, Function.comp_def, find_map, Option.isSome_map]

/-- Related groups are aligned as before. -/
theorem alignPaired_map (hsame : d'.key = d.key) (hkey : ∀ row, d'.keyValue row = d.keyValue row)
    (name : String) (groups : List (RowValues ℝ)) :
    alignPaired d' name (groups.map (List.map (Prod.map id f))) =
      (alignPaired d name groups).map (List.map (List.map f)) := by
  rw [alignPaired, alignPaired, hsame]
  cases d.key with
  | none =>
      have hsizes : (groups.map (List.map (Prod.map id f))).map List.length =
          groups.map List.length := by
        rw [List.map_map]
        exact List.map_congr_left fun g _ => List.length_map _
      dsimp only
      rw [hsizes]
      split
      · refine congrArg Except.ok ?_
        rw [List.map_map, List.map_map]
        refine List.map_congr_left fun g _ => ?_
        rw [Function.comp_apply, Function.comp_apply, List.map_map, List.map_map]
        rfl
      · rfl
  | some key =>
      have hidentified : (groups.map (List.map (Prod.map id f))).map (identified d') =
          (groups.map (identified d)).map (List.map (Prod.map id f)) := by
        rw [List.map_map, List.map_map]
        exact List.map_congr_left fun g _ => identified_map f hkey g
      dsimp only
      rw [hidentified, participants_map]
      refine congrArg Except.ok ?_
      generalize groups.map (identified d) = byId
      rw [List.map_map, List.map_map]
      refine List.map_congr_left fun g _ => ?_
      rw [Function.comp_apply, Function.comp_apply, List.map_filterMap]
      exact List.filterMap_congr fun id' _ => find_map f id' g

theorem groupSamples_map (hsame : d'.key = d.key) (hkey : ∀ row, d'.keyValue row = d.keyValue row)
    (name : String) (paired : Bool) (groups : List (RowValues ℝ)) :
    groupSamples d' name paired (groups.map (List.map (Prod.map id f))) =
      (groupSamples d name paired groups).map (List.map (List.map f)) := by
  cases paired with
  | true => exact alignPaired_map f hsame hkey name groups
  | false =>
      refine congrArg Except.ok ?_
      rw [List.map_map, List.map_map]
      refine List.map_congr_left fun g _ => ?_
      rw [Function.comp_apply, Function.comp_apply, List.map_map, List.map_map]
      rfl

/-- The samples of groups that are not empty are evenly filled, related or not. -/
theorem evenlyFilled_of_groupSamples {name : String} {paired : Bool} {groups : List (RowValues ℝ)}
    {samples : List (List ℝ)} (hne : ∀ g ∈ groups, g ≠ [])
    (h : groupSamples d name paired groups = .ok samples) : EvenlyFilled samples := by
  cases paired with
  | true =>
      obtain ⟨-, n, hlength⟩ := length_of_alignPaired h
      exact evenlyFilled_of_length hlength
  | false =>
      obtain rfl := Except.ok.inj h
      refine evenlyFilled_of_ne_nil (List.forall_mem_map.2 fun g hg hnil => hne g hg ?_)
      exact List.map_eq_nil_iff.1 hnil

end Related

/-! ### Comparisons -/

section Comparisons

variable {G : Variable → Cell ℝ → Cell ℝ} (hG : ∀ v, ∃ k, InUnit k (G v)) {d : Dataset ℝ}
  {e r : AnnotatedVariable ℝ} [Tails ℝ]

include hG

/-- **Groups are measured in another unit, or they cannot be formed for the same reason.** -/
theorem runsAlike_groupProperties [NumberText ℝ]
    (hkey : ∀ row, (d.mapCells G).keyValue row = d.keyValue row)
    (factor outcome : AnnotatedVariable ℝ) (paired : Bool) (base : PairProperties ℝ)
    (properties : NameMap (VariableProperties ℝ)) :
    RunsAlike Remeasured (groupProperties d factor outcome paired base)
      (groupProperties (d.mapCells G) (factor.mapCells G) (outcome.mapCells G) paired
        { base with variableProperties := properties }) := by
  obtain ⟨k, hgroupsOf⟩ := exists_groupsOf_mapCells hG (d := d) factor outcome
  rw [groupProperties, groupProperties, hgroupsOf]
  cases hgroups : groupsOf d factor outcome with
  | error err => exact .error err
  | ok groups =>
      have hfst : (groups.map (Prod.map id (List.map (Prod.map id k.measure)))).map (·.1) =
          groups.map (·.1) := List.map_map
      have hsnd : (groups.map (Prod.map id (List.map (Prod.map id k.measure)))).map (·.2) =
          (groups.map (·.2)).map (List.map (Prod.map id k.measure)) := by
        rw [List.map_map, List.map_map]
        rfl
      -- labels without rows are left out, so that no group is empty
      have hne : ∀ g ∈ groups.map (·.2), g ≠ [] := by
        obtain ⟨-, rfl⟩ := groupsOf_eq_ok_iff.1 hgroups
        rw [map_snd_labelled]
        refine List.forall_mem_map.2 fun label hlabel hnil => ?_
        have hfilled := (List.mem_filter.1 hlabel).2
        rw [hnil] at hfilled
        cases hfilled
      show RunsAlike _ (groupSamples d factor.var.name paired _ >>= _)
        (groupSamples (d.mapCells G) factor.var.name paired _ >>= _)
      rw [hsnd, hfst, groupSamples_map k.measure (show (d.mapCells G).key = d.key from rfl) hkey]
      cases hsamples : groupSamples d factor.var.name paired (groups.map (·.2)) with
      | error err => exact .error err
      | ok samples =>
          exact .ok (remeasured_sampledProperties k paired outcome.var (groups.map (·.1)) base
            properties (evenlyFilled_of_groupSamples hne hsamples))

/-- **The points of a correlation** are measured in other units, each variable in its own. -/
theorem exists_alignedKeys_mapCells (e r : AnnotatedVariable ℝ) :
    ∃ k k' : UnitChange, alignedKeys (e.mapCells G) (r.mapCells G) =
      (alignedKeys e r).map (Prod.map k.measure k'.measure) := by
  obtain ⟨_, he⟩ := exists_inUnit_cellMap hG e.binding
  obtain ⟨_, hr⟩ := exists_inUnit_cellMap hG r.binding
  obtain ⟨k, hk⟩ := he.exists_orderKey e.var
  obtain ⟨k', hk'⟩ := hr.exists_orderKey r.var
  refine ⟨k, k', ?_⟩
  rw [alignedKeys, alignedKeys, List.map_filterMap]
  show (e.binding.entries.map _).filterMap _ = _
  rw [List.filterMap_map]
  refine List.filterMap_congr ?_
  rintro ⟨row, cell⟩ -
  show ((e.var.orderKey (e.binding.cellMap G cell)).bind fun x =>
      ((r.binding.mapCells G).cellAt row).bind fun cell =>
        (r.var.orderKey cell).bind fun y => some (x, y)) =
    ((e.var.orderKey cell).bind fun x => (r.binding.cellAt row).bind fun cell =>
        (r.var.orderKey cell).bind fun y => some (x, y)).map (Prod.map k.measure k'.measure)
  rw [hk, Binding.cellAt_mapCells]
  cases e.var.orderKey cell with
  | none => rfl
  | some x =>
      cases r.binding.cellAt row with
      | none => rfl
      | some cell =>
          simp only [Option.map_some, Option.bind_some, hk']
          cases r.var.orderKey cell <;> rfl

theorem remeasured_correlationProperties (base : PairProperties ℝ)
    (properties : NameMap (VariableProperties ℝ)) :
    Remeasured (correlationProperties e r base)
      (correlationProperties (e.mapCells G) (r.mapCells G)
        { base with variableProperties := properties }) := by
  obtain ⟨k, k', hpoints⟩ := exists_alignedKeys_mapCells hG e r
  have hfst : ((alignedKeys e r).map (Prod.map k.measure k'.measure)).map (·.1) =
      ((alignedKeys e r).map (·.1)).map k.measure := by
    rw [List.map_map, List.map_map]
    rfl
  have hsnd : ((alignedKeys e r).map (Prod.map k.measure k'.measure)).map (·.2) =
      ((alignedKeys e r).map (·.2)).map k'.measure := by
    rw [List.map_map, List.map_map]
    rfl
  rw [correlationProperties, correlationProperties, hpoints]
  dsimp only
  rw [hfst, hsnd, normalTest_map_unit, normalTest_map_unit, tukeyOutliers_map_unit,
    tukeyOutliers_map_unit]
  simp only [List.length_map]
  refine ⟨.bivariate k k' _ _, fun labels samples hgroups => ?_, rfl⟩
  cases hgroups

/-- **Cross-tabulations have no unit.** -/
theorem remeasured_contingencyProperties (base : PairProperties ℝ)
    (properties : NameMap (VariableProperties ℝ)) :
    Remeasured (contingencyProperties e r base)
      (contingencyProperties (e.mapCells G) (r.mapCells G)
        { base with variableProperties := properties }) := by
  obtain ⟨_, he⟩ := exists_inUnit_cellMap hG e.binding
  obtain ⟨_, hr⟩ := exists_inUnit_cellMap hG r.binding
  have hranks : alignedRanks (e.mapCells G) (r.mapCells G) = alignedRanks e r := by
    rw [alignedRanks, alignedRanks]
    show (e.binding.entries.map _).filterMap _ = _
    rw [List.filterMap_map]
    refine List.filterMap_congr ?_
    rintro ⟨row, cell⟩ -
    show ((e.binding.cellMap G cell).text?.bind fun label => (e.var.rankOf label).bind fun i =>
        ((r.binding.mapCells G).cellAt row).bind fun cell =>
          cell.text?.bind fun label' => (r.var.rankOf label').bind fun j => some (i, j)) =
      cell.text?.bind fun label => (e.var.rankOf label).bind fun i =>
        (r.binding.cellAt row).bind fun cell =>
          cell.text?.bind fun label' => (r.var.rankOf label').bind fun j => some (i, j)
    rw [he.text?_eq, Binding.cellAt_mapCells]
    cases r.binding.cellAt row with
    | none => rfl
    | some cell => simp only [Option.map_some, Option.bind_some, hr.text?_eq]
  rw [contingencyProperties, contingencyProperties, hranks]
  refine ⟨.contingency _ _ _, fun labels samples hgroups => ?_, rfl⟩
  cases hgroups

/-- **Comparisons differ in the units only, or they cannot be prepared for the same reason.** -/
theorem runsAlike_pairProperties [NumberText ℝ]
    (hkey : ∀ row, (d.mapCells G).keyValue row = d.keyValue row) (design : Design ℝ)
    (kind : StudyKind) (hasRoles : Bool) (e r : AnnotatedVariable ℝ) :
    RunsAlike Remeasured (pairProperties d design kind hasRoles e r)
      (pairProperties (d.mapCells G) design kind hasRoles (e.mapCells G) (r.mapCells G)) := by
  have hlayout : layoutOf kind (e.mapCells G) (r.mapCells G) =
      (layoutOf kind e r).map (·.mapCells G) := layoutOf_map fun _ => rfl
  rw [pairProperties, pairProperties, hlayout]
  cases layoutOf kind e r with
  | groups factor outcome => exact runsAlike_groupProperties hG hkey factor outcome _ _ _
  | correlation => exact .ok (remeasured_correlationProperties hG _ _)
  | contingency => exact .ok (remeasured_contingencyProperties hG _ _)

/-- **The comparisons of a hypothesis** differ in the units only, or they cannot be prepared for the
same reason. -/
theorem runsAlike_combine [NumberText ℝ]
    (hkey : ∀ row, (d.mapCells G).keyValue row = d.keyValue row) (bindings : List (Binding ℝ))
    (design : Design ℝ) :
    RunsAlike (fun c c' => List.Forall₂ Remeasured c.pairs c'.pairs) (combine d bindings design)
      (combine (d.mapCells G) (bindings.map (·.mapCells G)) design) := by
  rw [combine, combine]
  cases design.resolve with
  | error err => exact .error err
  | ok kind =>
      have hvars : (bindings.map (·.mapCells G)).mapM (annotate design kind) =
          (bindings.mapM (annotate design kind)).map (List.map (·.mapCells G)) := by
        rw [List.mapM_map]
        exact mapM_eq_map_mapM fun b _ => annotate_mapCells b
      rw [ok_bind, ok_bind, hvars]
      cases bindings.mapM (annotate design kind) with
      | error err => exact .error err
      | ok vars =>
          have hcompared : comparisons (vars.map (·.mapCells G)) =
              (comparisons vars).map fun c =>
                (c.1, c.2.map (Prod.map (·.mapCells G) (·.mapCells G))) :=
            comparisons_map (fun _ => rfl) fun _ => rfl
          dsimp only [Except.map]
          rw [ok_bind, ok_bind, hcompared]
          cases comparisons vars with
          | error err => exact .error err
          | ok compared =>
              dsimp only [Except.map]
              rw [ok_bind, ok_bind]
              refine RunsAlike.bind (RunsAlike.mapM
                (R := fun p p' => p' = Prod.map (·.mapCells G) (·.mapCells G) p) ?_ ?_)
                fun _ _ hpairs => .ok hpairs
              · rintro p _ rfl
                exact runsAlike_pairProperties hG hkey design kind compared.1 p.1 p.2
              · exact List.forall₂_map_right_iff.2 (List.forall₂_same.2 fun _ _ => rfl)

end Comparisons

end Exact

end StudyAnalysis
