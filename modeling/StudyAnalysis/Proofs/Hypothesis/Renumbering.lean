/-
**Properties of comparisons do not depend on the numbers of rows.**

If all bindings of a hypothesis have the same rows, those rows may as well be all that the dataset
has.  The properties of comparisons are computed along two paths: from the bindings alone, and by
selecting from the whole dataset again.  On either path the same cells meet, only under the new
numbers of their rows.

Main definitions:

* `StudyAnalysis.Binding.renumber`, `StudyAnalysis.AnnotatedVariable.renumber` — a binding with the
  new numbers of its rows;
* `StudyAnalysis.Binding.TakenAt` — **a binding has the cells of its column at some rows**.

Main results:

* `StudyAnalysis.Binding.cellAt_renumber` — reading a binding at a row;
* `StudyAnalysis.groupRows_eq_ok` — a group has the cells of the outcome at those rows of the factor
  that have its label;
* `StudyAnalysis.pairProperties_renumber` — **the properties of a comparison stay the same** if
  other rows are left out and the kept ones numbered anew;
* `StudyAnalysis.combine_renumber` — so do those of all comparisons.
-/

import StudyAnalysis.Hypothesis.Properties
import StudyAnalysis.Proofs.Data.KeepRows
import StudyAnalysis.Proofs.Hypothesis.Bindings

set_option autoImplicit false
set_option relaxedAutoImplicit false

namespace StudyAnalysis

open Fallible

variable {α : Type} {d : Dataset α} {kept rows : List Nat}

/-! ### Bindings -/

namespace Binding

/-- A binding with the new numbers of its rows. -/
def renumber (kept : List Nat) (b : Binding α) : Binding α :=
  { b with entries := b.entries.map (StudyAnalysis.renumber kept) }

/-- A binding has the cells of its column at some rows. -/
def TakenAt (d : Dataset α) (rows : List Nat) (b : Binding α) : Prop :=
  ∃ c, d.columns.get? c.var.name = some c ∧ b = ⟨c.entriesAt rows, some c.var⟩

variable {b : Binding α}

theorem values_renumber : (b.renumber kept).values = b.values := by
  rw [values, values, renumber, List.map_map]
  rfl

theorem TakenAt.isLiteral_eq_false (hb : b.TakenAt d rows) : b.isLiteral = false := by
  obtain ⟨c, -, rfl⟩ := hb
  rfl

theorem TakenAt.rows_eq (hd : d.WellFormed) (hrows : d.AscendingRows rows)
    (hb : b.TakenAt d rows) : b.rows = rows := by
  obtain ⟨c, hc, rfl⟩ := hb
  exact Column.map_fst_entriesAt (hrows.lt_length hd hc)

/-- A binding that is taken at the kept rows is, with their new numbers, taken from what is left of
the dataset. -/
theorem TakenAt.renumber (hd : d.WellFormed) (hkept : d.AscendingRows kept)
    (hb : b.TakenAt d kept) :
    (b.renumber kept).TakenAt (d.keepRows kept) (kept.map kept.idxOf) := by
  obtain ⟨c, hc, rfl⟩ := hb
  refine ⟨c.keepRows kept, Dataset.get?_keepRows_of_eq_some hc, ?_⟩
  rw [Column.entriesAt_keepRows (hkept.lt_length hd hc) (List.Subset.refl kept)]
  rfl

theorem TakenAt.pairwise_rows (hd : d.WellFormed) (hrows : d.AscendingRows rows)
    (hb : b.TakenAt d rows) : b.rows.Pairwise (· < ·) := by
  rw [hb.rows_eq hd hrows]
  exact hrows.pairwise

/-- At the new number of a row there stands the same cell. -/
theorem cellAt_renumber (hd : d.WellFormed) (hkept : d.AscendingRows kept)
    (hb : b.TakenAt d kept) {row : Nat} (hrow : row ∈ kept) :
    (b.renumber kept).cellAt (kept.idxOf row) = b.cellAt row := by
  have hpairwise : (b.renumber kept).rows.Pairwise (· < ·) :=
    (hb.renumber hd hkept).pairwise_rows (hd.keepRows hkept) hkept.keepRows
  refine Option.ext fun cell => ?_
  rw [cellAt_eq_some_iff hpairwise, cellAt_eq_some_iff (hb.pairwise_rows hd hkept), renumber,
    List.mem_map]
  -- the new number of a kept row belongs to no other row
  constructor
  · rintro ⟨⟨row', cell'⟩, hentry, heq⟩
    obtain ⟨hidx, rfl⟩ := Prod.mk.inj heq
    obtain rfl := (List.idxOf_inj hrow).1 hidx.symm
    exact hentry
  · intro hentry
    exact ⟨(row, cell), hentry, rfl⟩

end Binding

/-! ### Variables with their roles -/

namespace AnnotatedVariable

/-- A variable with the new numbers of its rows. -/
def renumber (kept : List Nat) (a : AnnotatedVariable α) : AnnotatedVariable α :=
  { a with binding := a.binding.renumber kept }

/-- A variable has the cells of its column at some rows. -/
def TakenAt (d : Dataset α) (rows : List Nat) (a : AnnotatedVariable α) : Prop :=
  a.binding.TakenAt d rows ∧ a.binding.var = some a.var

variable {a : AnnotatedVariable α}

theorem TakenAt.renumber (hd : d.WellFormed) (hkept : d.AscendingRows kept)
    (ha : a.TakenAt d kept) :
    (a.renumber kept).TakenAt (d.keepRows kept) (kept.map kept.idxOf) :=
  ⟨ha.1.renumber hd hkept, ha.2⟩

theorem TakenAt.exists_column (ha : a.TakenAt d rows) :
    ∃ c, d.columns.get? a.var.name = some c ∧ a.binding.entries = c.entriesAt rows := by
  obtain ⟨⟨c, hc, hb⟩, hvar⟩ := ha
  rw [hb] at hvar
  refine ⟨c, ?_, by rw [hb]⟩
  rwa [← Option.some.inj hvar]

end AnnotatedVariable

variable [Numeric α] [Tails α]

theorem variableProperties_renumber {b : Binding α} {v : Variable} :
    variableProperties (b.renumber kept) v = variableProperties b v := by
  have hlength : (b.renumber kept).entries.length = b.entries.length := List.length_map _
  rw [variableProperties, variableProperties, orderKeys, orderKeys, Binding.values_renumber,
    hlength]

theorem annotate_renumber {design : Design α} {kind : StudyKind} {b : Binding α} :
    annotate design kind (b.renumber kept) = (annotate design kind b).map (·.renumber kept) := by
  obtain ⟨entries, var⟩ := b
  cases var with
  | none => rfl
  | some v =>
      have hproperties : variableProperties (Binding.renumber kept ⟨entries, some v⟩) v =
          variableProperties ⟨entries, some v⟩ v := variableProperties_renumber
      show Except.ok (AnnotatedVariable.mk _ v _ _) = Except.ok (AnnotatedVariable.mk _ v _ _)
      rw [hproperties]

theorem takenAt_of_annotate {design : Design α} {kind : StudyKind} {b : Binding α}
    {a : AnnotatedVariable α} (h : annotate design kind b = .ok a) (hb : b.TakenAt d rows) :
    a.TakenAt d rows := by
  rw [annotate] at h
  split at h
  · rename_i v hv
    obtain rfl := Except.ok.inj h
    exact ⟨hb, hv⟩
  · cases h

/-! ### Groups -/

section Groups

/-- A group with the new numbers of its rows. -/
def renumberGroup (kept : List Nat) (g : String × RowValues α) : String × RowValues α :=
  (g.1, g.2.map (renumber kept))

variable {factor outcome : AnnotatedVariable α} {label : String}

omit [Tails α] in
/-- A group has the cells of the outcome at those rows of the factor that have its label. -/
theorem groupRows_eq_ok (hd : d.WellFormed) (hrows : d.AscendingRows rows)
    (hfactor : factor.TakenAt d rows) {c f : Column α}
    (hc : d.columns.get? outcome.var.name = some c)
    (hf : d.columns.get? factor.var.name = some f) :
    groupRows d factor outcome label =
      .ok ((c.entriesAt (rows.filter fun row => f.cells[row]?.any (·.agrees (.text label)))).filterMap
        fun e => (outcome.var.orderKey e.2).map (e.1, ·)) := by
  have hkeep : (c.entriesAt ((List.range d.rowCount).filter fun row =>
        f.cells[row]?.any (·.agrees (.text label)))).filter
        (fun e => factor.binding.rows.contains e.1) =
      c.entriesAt (rows.filter fun row => f.cells[row]?.any (·.agrees (.text label))) := by
    rw [Column.filter_entriesAt (fun row => factor.binding.rows.contains row),
      hfactor.1.rows_eq hd hrows, List.filter_filter]
    -- the rows of the factor are those rows of the dataset that the factor has
    conv_rhs => rw [← filter_contains_eq List.pairwise_lt_range hrows.pairwise
      fun row hrow => List.mem_range.2 (hrows.lt_rowCount row hrow), List.filter_filter]
    simp only [Bool.and_comm]
  rw [groupRows, Dataset.select_eq_text hc hf, ok_bind, pure_eq_ok]
  exact congrArg Except.ok (congrArg _ hkeep)

omit [Tails α] in
theorem mem_of_mem_groupRows (hd : d.WellFormed) (hrows : d.AscendingRows rows)
    (hfactor : factor.TakenAt d rows) (houtcome : outcome.TakenAt d rows) {group : RowValues α}
    (h : groupRows d factor outcome label = .ok group) : ∀ e ∈ group, e.1 ∈ rows := by
  obtain ⟨f, hf, -⟩ := hfactor.exists_column
  obtain ⟨c, hc, -⟩ := houtcome.exists_column
  rw [groupRows_eq_ok hd hrows hfactor hc hf] at h
  obtain rfl := Except.ok.inj h
  intro e he
  obtain ⟨⟨row, cell⟩, hentry, hkey⟩ := List.mem_filterMap.1 he
  obtain ⟨x, -, rfl⟩ := Option.map_eq_some_iff.1 hkey
  exact List.mem_of_mem_filter (Column.mem_entriesAt.1 hentry).1

omit [Tails α] in
theorem groupRows_renumber (hd : d.WellFormed) (hkept : d.AscendingRows kept)
    (hfactor : factor.TakenAt d kept) (houtcome : outcome.TakenAt d kept) :
    groupRows (d.keepRows kept) (factor.renumber kept) (outcome.renumber kept) label =
      (groupRows d factor outcome label).map (List.map (renumber kept)) := by
  obtain ⟨f, hf, -⟩ := hfactor.exists_column
  obtain ⟨c, hc, -⟩ := houtcome.exists_column
  have hf' : (d.keepRows kept).columns.get? (factor.renumber kept).var.name =
      some (f.keepRows kept) := Dataset.get?_keepRows_of_eq_some hf
  have hc' : (d.keepRows kept).columns.get? (outcome.renumber kept).var.name =
      some (c.keepRows kept) := Dataset.get?_keepRows_of_eq_some hc
  have hlabel : (kept.map kept.idxOf).filter
        (fun row => (f.keepRows kept).cells[row]?.any (·.agrees (.text label))) =
      (kept.filter fun row => f.cells[row]?.any (·.agrees (.text label))).map kept.idxOf := by
    rw [List.filter_map]
    refine congrArg _ (List.filter_congr fun row hrow => ?_)
    rw [Function.comp_apply, Column.getElem?_keepRows (hkept.lt_length hd hf) hrow]
  rw [groupRows_eq_ok (hd.keepRows hkept) hkept.keepRows (hfactor.renumber hd hkept) hc' hf',
    groupRows_eq_ok hd hkept hfactor hc hf, hlabel,
    Column.entriesAt_keepRows (hkept.lt_length hd hc) List.filter_sublist.subset]
  refine congrArg Except.ok ?_
  rw [List.filterMap_map, List.map_filterMap]
  refine List.filterMap_congr fun e _ => ?_
  rw [Option.map_map]
  rfl

omit [Tails α] in
theorem groupsOf_renumber (hd : d.WellFormed) (hkept : d.AscendingRows kept)
    (hfactor : factor.TakenAt d kept) (houtcome : outcome.TakenAt d kept) :
    groupsOf (d.keepRows kept) (factor.renumber kept) (outcome.renumber kept) =
      (groupsOf d factor outcome).map (List.map (renumberGroup kept)) := by
  have hgroups : (factor.var.labels.mapM fun label => do
        return (label, ← groupRows (d.keepRows kept) (factor.renumber kept)
          (outcome.renumber kept) label)) =
      (factor.var.labels.mapM fun label => do
        return (label, ← groupRows d factor outcome label)).map
          (List.map (renumberGroup kept)) := by
    refine mapM_eq_map_mapM fun label _ => ?_
    rw [groupRows_renumber hd hkept hfactor houtcome]
    cases groupRows d factor outcome label <;> rfl
  rw [groupsOf, groupsOf]
  show (factor.var.labels.mapM _ >>= _) = _
  rw [hgroups]
  cases (factor.var.labels.mapM fun label => do
      return (label, ← groupRows d factor outcome label)) with
  | error err => rfl
  | ok groups =>
      refine congrArg Except.ok ?_
      rw [List.filter_map]
      refine congrArg _ (List.filter_congr fun g _ => ?_)
      show (!(g.2.map (renumber kept)).isEmpty) = !g.2.isEmpty
      rw [List.isEmpty_map]

omit [Tails α] in
theorem mem_of_mem_groupsOf (hd : d.WellFormed) (hrows : d.AscendingRows rows)
    (hfactor : factor.TakenAt d rows) (houtcome : outcome.TakenAt d rows)
    {groups : List (String × RowValues α)} (h : groupsOf d factor outcome = .ok groups) :
    ∀ g ∈ groups, ∀ e ∈ g.2, e.1 ∈ rows := by
  intro g hg
  obtain ⟨all, hall, h⟩ := bind_eq_ok_iff.1 h
  obtain rfl := Except.ok.inj h
  obtain ⟨label, -, hlabel⟩ := exists_of_mem_mapM hall (List.mem_of_mem_filter hg)
  obtain ⟨group, hgroup, hlabel⟩ := bind_eq_ok_iff.1 hlabel
  obtain rfl := Except.ok.inj hlabel
  exact mem_of_mem_groupRows hd hrows hfactor houtcome hgroup

omit [Numeric α] [Tails α] in
theorem identified_renumber [NumberText α] (hd : d.WellFormed) (hkept : d.AscendingRows kept)
    {group : RowValues α} (hgroup : ∀ e ∈ group, e.1 ∈ kept) :
    identified (d.keepRows kept) (group.map (renumber kept)) = identified d group := by
  rw [identified, identified, List.filterMap_map]
  refine List.filterMap_congr fun e he => ?_
  show (Dataset.keyValue _ (kept.idxOf e.1)).map _ = _
  rw [Dataset.keyValue_keepRows hd hkept (hgroup e he)]

omit [Numeric α] [Tails α] in
theorem map_values_renumber {groups : List (RowValues α)} :
    ((groups.map (List.map (renumber kept))).map fun g => g.map (·.2)) =
      groups.map fun g => g.map (·.2) := by
  rw [List.map_map]
  exact List.map_congr_left fun g _ => List.map_map

omit [Numeric α] [Tails α] in
/-- Alignment looks at participants and at the order of rows, not at their numbers. -/
theorem alignPaired_renumber [NumberText α] (hd : d.WellFormed) (hkept : d.AscendingRows kept)
    {name : String} {groups : List (RowValues α)} (hgroups : ∀ g ∈ groups, ∀ e ∈ g, e.1 ∈ kept) :
    alignPaired (d.keepRows kept) name (groups.map (List.map (renumber kept))) =
      alignPaired d name groups := by
  have hkey : (d.keepRows kept).key = d.key := rfl
  rw [alignPaired, alignPaired, hkey]
  cases d.key with
  | none =>
      -- without a key, the groups are compared by size and taken as they are
      have hsizes : (groups.map (List.map (renumber kept))).map List.length =
          groups.map List.length := by
        rw [List.map_map]
        exact List.map_congr_left fun g _ => List.length_map _
      dsimp only
      rw [hsizes, map_values_renumber]
  | some key =>
      have hidentified : (groups.map (List.map (renumber kept))).map
          (identified (d.keepRows kept)) = groups.map (identified d) := by
        rw [List.map_map]
        exact List.map_congr_left fun g hg => identified_renumber hd hkept (hgroups g hg)
      dsimp only
      rw [hidentified]

omit [Numeric α] [Tails α] in
theorem groupSamples_renumber [NumberText α] (hd : d.WellFormed) (hkept : d.AscendingRows kept)
    {name : String} {paired : Bool} {groups : List (RowValues α)}
    (hgroups : ∀ g ∈ groups, ∀ e ∈ g, e.1 ∈ kept) :
    groupSamples (d.keepRows kept) name paired (groups.map (List.map (renumber kept))) =
      groupSamples d name paired groups := by
  cases paired with
  | true => exact alignPaired_renumber hd hkept hgroups
  | false => exact congrArg Except.ok map_values_renumber

theorem groupProperties_renumber [NumberText α] (hd : d.WellFormed)
    (hkept : d.AscendingRows kept) (hfactor : factor.TakenAt d kept)
    (houtcome : outcome.TakenAt d kept) (paired : Bool) (base : PairProperties α) :
    groupProperties (d.keepRows kept) (factor.renumber kept) (outcome.renumber kept) paired base =
      groupProperties d factor outcome paired base := by
  rw [groupProperties, groupProperties, groupsOf_renumber hd hkept hfactor houtcome]
  cases hgroups : groupsOf d factor outcome with
  | error err => rfl
  | ok groups =>
      have hrows : ∀ g ∈ groups.map (·.2), ∀ e ∈ g, e.1 ∈ kept := by
        intro g hg
        obtain ⟨g', hg', rfl⟩ := List.mem_map.1 hg
        exact mem_of_mem_groupsOf hd hkept hfactor houtcome hgroups g' hg'
      have hlabels : (groups.map (renumberGroup kept)).map (·.1) = groups.map (·.1) :=
        List.map_map
      have hvalues : (groups.map (renumberGroup kept)).map (·.2) =
          (groups.map (·.2)).map (List.map (renumber kept)) := by
        rw [List.map_map, List.map_map]
        rfl
      dsimp only [Except.map, ok_bind]
      rw [hlabels, hvalues]
      show groupSamples _ factor.var.name _ _ >>= _ = _
      rw [groupSamples_renumber hd hkept hrows]
      rfl

end Groups

/-! ### Variables that are read row by row -/

section Aligned

variable {e r : AnnotatedVariable α}

omit [Numeric α] [Tails α] in
/-- Two variables meet at the same cells, whatever is made of them. -/
theorem filterMap_renumber {γ : Type} (hd : d.WellFormed) (hkept : d.AscendingRows kept)
    (he : e.TakenAt d kept) (hr : r.TakenAt d kept)
    (f : Cell α → Option (Cell α) → Option γ) :
    ((e.renumber kept).binding.entries.filterMap fun entry =>
        f entry.2 ((r.renumber kept).binding.cellAt entry.1)) =
      e.binding.entries.filterMap fun entry => f entry.2 (r.binding.cellAt entry.1) := by
  show List.filterMap _ (e.binding.entries.map (renumber kept)) = _
  rw [List.filterMap_map]
  refine List.filterMap_congr fun entry hentry => ?_
  have hrow : entry.1 ∈ kept := by
    rw [← he.1.rows_eq hd hkept]
    exact List.mem_map_of_mem hentry
  show f entry.2 ((r.binding.renumber kept).cellAt (kept.idxOf entry.1)) = _
  rw [Binding.cellAt_renumber hd hkept hr.1 hrow]

omit [Tails α] in
theorem alignedKeys_renumber (hd : d.WellFormed) (hkept : d.AscendingRows kept)
    (he : e.TakenAt d kept) (hr : r.TakenAt d kept) :
    alignedKeys (e.renumber kept) (r.renumber kept) = alignedKeys e r :=
  filterMap_renumber hd hkept he hr fun cell other => do
    let x ← e.var.orderKey cell
    let y ← r.var.orderKey (← other)
    return (x, y)

omit [Numeric α] [Tails α] in
theorem alignedRanks_renumber (hd : d.WellFormed) (hkept : d.AscendingRows kept)
    (he : e.TakenAt d kept) (hr : r.TakenAt d kept) :
    alignedRanks (e.renumber kept) (r.renumber kept) = alignedRanks e r :=
  filterMap_renumber hd hkept he hr fun cell other => do
    let i ← e.var.rankOf (← cell.text?)
    let j ← r.var.rankOf (← (← other).text?)
    return (i, j)

theorem correlationProperties_renumber (hd : d.WellFormed) (hkept : d.AscendingRows kept)
    (he : e.TakenAt d kept) (hr : r.TakenAt d kept) (base : PairProperties α) :
    correlationProperties (e.renumber kept) (r.renumber kept) base =
      correlationProperties e r base := by
  rw [correlationProperties, correlationProperties, alignedKeys_renumber hd hkept he hr]
  rfl

omit [Tails α] in
theorem contingencyProperties_renumber (hd : d.WellFormed) (hkept : d.AscendingRows kept)
    (he : e.TakenAt d kept) (hr : r.TakenAt d kept) (base : PairProperties α) :
    contingencyProperties (e.renumber kept) (r.renumber kept) base =
      contingencyProperties e r base := by
  rw [contingencyProperties, contingencyProperties, alignedRanks_renumber hd hkept he hr]
  rfl

end Aligned

/-! ### All comparisons -/

section Comparisons

variable {e r factor outcome : AnnotatedVariable α} {kind : StudyKind}

/-- A layout with a function applied to its variables. -/
def Layout.map (g : AnnotatedVariable α → AnnotatedVariable α) : Layout α → Layout α
  | groups factor outcome => groups (g factor) (g outcome)
  | correlation => correlation
  | contingency => contingency

/-- A layout with the new numbers of the rows. -/
def Layout.renumber (kept : List Nat) : Layout α → Layout α
  | groups factor outcome => groups (factor.renumber kept) (outcome.renumber kept)
  | correlation => correlation
  | contingency => contingency

omit [Numeric α] [Tails α] in
/-- The layout depends on the scales alone. -/
theorem layoutOf_map {g : AnnotatedVariable α → AnnotatedVariable α}
    (hscale : ∀ a, (g a).var.scale = a.var.scale) :
    layoutOf kind (g e) (g r) = (layoutOf kind e r).map g := by
  rw [layoutOf.eq_def, layoutOf.eq_def, hscale, hscale]
  cases e.var.scale <;> cases r.var.scale <;> cases kind <;> rfl

omit [Numeric α] [Tails α] in
theorem layoutOf_renumber :
    layoutOf kind (e.renumber kept) (r.renumber kept) = (layoutOf kind e r).renumber kept := by
  rw [layoutOf_map (g := (·.renumber kept)) fun _ => rfl]
  cases layoutOf kind e r <;> rfl

omit [Numeric α] [Tails α] in
theorem eq_or_eq_of_layoutOf (h : layoutOf kind e r = .groups factor outcome) :
    factor = e ∧ outcome = r ∨ factor = r ∧ outcome = e := by
  rw [layoutOf.eq_def] at h
  generalize e.var.scale = explaining at h
  generalize r.var.scale = explained at h
  cases explaining <;> cases explained <;> cases kind <;> cases h <;> simp

/-- **The properties of a comparison stay the same** if other rows are left out and the kept ones
numbered anew. -/
theorem pairProperties_renumber [NumberText α] (hd : d.WellFormed) (hkept : d.AscendingRows kept)
    (he : e.TakenAt d kept) (hr : r.TakenAt d kept) (design : Design α) (kind : StudyKind)
    (hasRoles : Bool) :
    pairProperties (d.keepRows kept) design kind hasRoles (e.renumber kept) (r.renumber kept) =
      pairProperties d design kind hasRoles e r := by
  rw [pairProperties, pairProperties, layoutOf_renumber]
  cases hlayout : layoutOf kind e r with
  | groups factor outcome =>
      have htaken : factor.TakenAt d kept ∧ outcome.TakenAt d kept := by
        rcases eq_or_eq_of_layoutOf hlayout with ⟨rfl, rfl⟩ | ⟨rfl, rfl⟩
        · exact ⟨he, hr⟩
        · exact ⟨hr, he⟩
      exact groupProperties_renumber hd hkept htaken.1 htaken.2 _ _
  | correlation => exact congrArg Except.ok (correlationProperties_renumber hd hkept he hr _)
  | contingency => exact congrArg Except.ok (contingencyProperties_renumber hd hkept he hr _)

variable {vars : List (AnnotatedVariable α)}

/-- Two variables with the new numbers of their rows. -/
def renumberPair (kept : List Nat) (p : AnnotatedVariable α × AnnotatedVariable α) :
    AnnotatedVariable α × AnnotatedVariable α :=
  (p.1.renumber kept, p.2.renumber kept)

omit [Numeric α] [Tails α] in
/-- A function that keeps the roles of the variables is applied to the pairs. -/
theorem rolePairs_map {g : AnnotatedVariable α → AnnotatedVariable α}
    (hrole : ∀ a, (g a).role = a.role) :
    rolePairs (vars.map g) = (rolePairs vars).map (Prod.map g g) := by
  have hresponse : ((fun a : AnnotatedVariable α => a.role.isResponse) ∘ g) =
      fun a => a.role.isResponse := funext fun a => by rw [Function.comp_apply, hrole]
  have hexplanatory : ((fun a : AnnotatedVariable α => a.role.isExplanatory) ∘ g) =
      fun a => a.role.isExplanatory := funext fun a => by rw [Function.comp_apply, hrole]
  rw [rolePairs, rolePairs, List.filter_map, List.filter_map, List.flatMap_map, List.map_flatMap,
    hresponse, hexplanatory]
  refine List.flatMap_congr fun e _ => ?_
  rw [List.map_map, List.map_map]
  rfl

omit [Numeric α] [Tails α] in
/-- Which variables are compared depends on their roles and names alone. -/
theorem comparisons_map {g : AnnotatedVariable α → AnnotatedVariable α}
    (hrole : ∀ a, (g a).role = a.role) (hname : ∀ a, (g a).var.name = a.var.name) :
    comparisons (vars.map g) =
      (comparisons vars).map fun c => (c.1, c.2.map (Prod.map g g)) := by
  have hnames : (vars.map g).map (·.var.name) = vars.map (·.var.name) := by
    rw [List.map_map]
    exact List.map_congr_left fun a _ => hname a
  rw [comparisons.eq_def, comparisons.eq_def, rolePairs_map hrole, hnames]
  cases rolePairs vars with
  | cons p rest => rfl
  | nil =>
      match vars with
      | [] | [_] | [_, _] | _ :: _ :: _ :: _ => rfl

omit [Numeric α] [Tails α] in
theorem comparisons_renumber :
    comparisons (vars.map (·.renumber kept)) =
      (comparisons vars).map fun c => (c.1, c.2.map (renumberPair kept)) :=
  comparisons_map (fun _ => rfl) fun _ => rfl

omit [Numeric α] [Tails α] in
theorem mem_of_comparisons {hasRoles : Bool}
    {compared : List (AnnotatedVariable α × AnnotatedVariable α)}
    (h : comparisons vars = .ok (hasRoles, compared)) :
    ∀ p ∈ compared, p.1 ∈ vars ∧ p.2 ∈ vars := by
  intro p hp
  rw [comparisons.eq_def] at h
  split at h
  · cases h
    rw [List.mem_singleton] at hp
    subst hp
    simp
  · cases h
  · cases h
    obtain ⟨e, he, hp⟩ := List.mem_flatMap.1 hp
    obtain ⟨r, hr, rfl⟩ := List.mem_map.1 hp
    exact ⟨List.mem_of_mem_filter he, List.mem_of_mem_filter hr⟩

/-- The comparisons of some variables with the new numbers of their rows. -/
def Combination.renumber (kept : List Nat) (c : Combination α) : Combination α :=
  { c with vars := c.vars.map (·.renumber kept) }

/-- **All comparisons of some bindings stay the same** if other rows are left out and the kept ones
numbered anew. -/
theorem combine_renumber [NumberText α] (hd : d.WellFormed) (hkept : d.AscendingRows kept)
    {bindings : List (Binding α)} (hbindings : ∀ b ∈ bindings, b.TakenAt d kept)
    (design : Design α) :
    combine (d.keepRows kept) (bindings.map (·.renumber kept)) design =
      (combine d bindings design).map (·.renumber kept) := by
  rw [combine, combine]
  cases design.resolve with
  | error err => rfl
  | ok kind =>
      have hvars : (bindings.map (·.renumber kept)).mapM (annotate design kind) =
          (bindings.mapM (annotate design kind)).map (List.map (·.renumber kept)) := by
        rw [List.mapM_map]
        exact mapM_eq_map_mapM fun b _ => annotate_renumber
      rw [ok_bind, ok_bind, hvars]
      cases hannotated : bindings.mapM (annotate design kind) with
      | error err => rfl
      | ok vars =>
          have htaken : ∀ a ∈ vars, a.TakenAt d kept := by
            intro a ha
            obtain ⟨b, hb, hab⟩ := exists_of_mem_mapM hannotated ha
            exact takenAt_of_annotate hab (hbindings b hb)
          show (comparisons (vars.map (·.renumber kept)) >>= _) = _
          rw [comparisons_renumber, ok_bind]
          cases hcompared : comparisons vars with
          | error err => rfl
          | ok c =>
              obtain ⟨hasRoles, compared⟩ := c
              have hpairs : ((compared.map (renumberPair kept)).mapM fun p =>
                    pairProperties (d.keepRows kept) design kind hasRoles p.1 p.2) =
                  compared.mapM fun p => pairProperties d design kind hasRoles p.1 p.2 := by
                rw [List.mapM_map]
                refine mapM_congr fun p hp => ?_
                obtain ⟨he, hr⟩ := mem_of_comparisons hcompared p hp
                exact pairProperties_renumber hd hkept (htaken _ he) (htaken _ hr) _ _ _
              show (((compared.map (renumberPair kept)).mapM fun p =>
                    pairProperties (d.keepRows kept) design kind hasRoles p.1 p.2) >>=
                    fun pairs => .ok (Combination.mk kind (vars.map (·.renumber kept)) pairs)) =
                  ((compared.mapM fun p => pairProperties d design kind hasRoles p.1 p.2) >>=
                    fun pairs => .ok (Combination.mk kind vars pairs)).map
                      (Combination.renumber kept)
              rw [hpairs]
              cases compared.mapM fun p => pairProperties d design kind hasRoles p.1 p.2 with
              | error err => rfl
              | ok pairs => rfl

end Comparisons

end StudyAnalysis
