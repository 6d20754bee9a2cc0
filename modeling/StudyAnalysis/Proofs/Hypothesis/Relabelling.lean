/-
**Listing nominal labels in another order.**

The labels of a nominal variable are declared in some order, although they have none.  This module
follows a change of that order through an evaluation.  What an expression selects stays the same: a
label is declared in both orders, and an ordered comparison of a nominal variable fails in both.  Which
variables are compared, and how, stays the same as well.  What changes is the order in which groups
are formed and in which the labels of a cross-tabulation are listed.

Main definitions:

* `StudyAnalysis.Variable.ReordersLabels` — a change of variables that only reorders nominal labels;
* `StudyAnalysis.Dataset.relabel`, `StudyAnalysis.Binding.relabel`,
  `StudyAnalysis.AnnotatedVariable.relabel` — its effect on data;
* `StudyAnalysis.groupCells` — the group of a label;
* `StudyAnalysis.alignedLabels` — the labels of two variables row by row.

Main results:

* `StudyAnalysis.Dataset.ofColumns_relabel` — a dataset is made of the same columns in both orders;
* `StudyAnalysis.evaluateBinding_relabel` — **selections do not depend on the order of nominal
  labels**;
* `StudyAnalysis.groupsOf_eq_ok_iff` — the groups of a factor, label by label;
* `StudyAnalysis.contingencyProperties_eq` — a cross-tabulation counts pairs of labels.
-/

import StudyAnalysis.Proofs.Hypothesis.FilterChecks
import StudyAnalysis.Proofs.Hypothesis.Observations
import StudyAnalysis.Proofs.Hypothesis.PreparedSamples

set_option autoImplicit false
set_option relaxedAutoImplicit false

namespace StudyAnalysis

open Fallible

variable {α : Type}

/-! ### Variables -/

namespace Variable

/-- A change of variables that lists the labels of nominal variables in another order and keeps
everything else. -/
structure ReordersLabels (σ : Variable → Variable) : Prop where
  name_eq (v : Variable) : (σ v).name = v.name
  scale_eq (v : Variable) : (σ v).scale = v.scale
  perm (v : Variable) : v.labels.Perm (σ v).labels
  eq_self (v : Variable) (hscale : v.scale ≠ .nominal) : σ v = v

namespace ReordersLabels

variable {σ : Variable → Variable} (h : ReordersLabels σ) (v : Variable)

include h

/-- A label has a rank in both orders or in none. -/
theorem isSome_rankOf (label : String) : ((σ v).rankOf label).isSome = (v.rankOf label).isSome := by
  rw [Bool.eq_iff_iff, Variable.isSome_rankOf, Variable.isSome_rankOf, (h.perm v).mem_iff]

variable [Numeric α]

/-- The cells of a nominal variable have no order. -/
theorem orderKey_eq (cell : Cell α) : (σ v).orderKey cell = v.orderKey cell := by
  by_cases hscale : v.scale = .nominal
  · rw [orderKey, orderKey, h.scale_eq, hscale]
  · rw [h.eq_self v hscale]

theorem comparandKey_eq (comparison : Comparison) (comparand : Cell α) :
    (σ v).comparandKey comparison comparand = v.comparandKey comparison comparand := by
  by_cases hscale : v.scale = .nominal
  · rw [comparandKey.eq_def, comparandKey.eq_def, h.scale_eq, hscale, h.name_eq]
  · rw [h.eq_self v hscale]

theorem compare_eq (cell : Cell α) (comparison : Comparison) (comparand : Cell α) :
    (σ v).compare cell comparison comparand = v.compare cell comparison comparand := by
  rw [compare, compare, h.comparandKey_eq, h.orderKey_eq]

theorem checkComparand_eq (comparand : Cell α) :
    (σ v).checkComparand comparand = v.checkComparand comparand := by
  by_cases hscale : v.scale = .nominal
  · have hscale' : (σ v).scale = .nominal := (h.scale_eq v).trans hscale
    cases comparand <;> simp only [checkComparand, hscale, hscale', h.isSome_rankOf, h.name_eq]
  · rw [h.eq_self v hscale]

theorem checkCell_eq (cell : Cell α) : (σ v).checkCell cell = v.checkCell cell := by
  by_cases hscale : v.scale = .nominal
  · have hscale' : (σ v).scale = .nominal := (h.scale_eq v).trans hscale
    cases cell <;> simp only [checkCell, hscale, hscale', h.isSome_rankOf, h.name_eq]
  · rw [h.eq_self v hscale]

end ReordersLabels

/-- The labels of one nominal variable listed in another order. -/
def reorder (name : String) (order : List String → List String) (v : Variable) : Variable :=
  if v.name = name ∧ v.scale = .nominal then { v with categories := v.categories.map order } else v

/-- Listing the labels of one variable in another order is a change of that kind. -/
theorem reordersLabels_reorder (name : String) {order : List String → List String}
    (horder : ∀ labels : List String, labels.Perm (order labels)) : ReordersLabels (reorder name order) where
  name_eq v := by
    rw [reorder]
    split <;> rfl
  scale_eq v := by
    rw [reorder]
    split <;> rfl
  perm v := by
    rw [reorder]
    split
    · cases hcategories : v.categories with
      | none => simp [labels, hcategories]
      | some ls => simpa [labels, hcategories] using horder ls
    · exact List.Perm.refl _
  eq_self v hscale := if_neg fun h => hscale h.2

end Variable

/-! ### Datasets -/

section Data

variable {σ : Variable → Variable} (h : Variable.ReordersLabels σ)

/-- A column with its variable changed. -/
def Column.relabel (σ : Variable → Variable) (c : Column α) : Column α :=
  { c with var := σ c.var }

/-- A dataset with its variables changed; the cells stay as they are. -/
def Dataset.relabel (σ : Variable → Variable) (d : Dataset α) : Dataset α :=
  { d with columns := d.columns.map (·.relabel σ) }

theorem NameMap.ofList_map {β γ : Type} (f : β → γ) (entries : List (String × β)) :
    ofList (entries.map fun e => (e.1, f e.2)) = (ofList entries).map f := by
  have hinsert : ∀ (name : String) (value : β) (es : List (String × β)),
      insertInto name (f value) (es.map fun e => (e.1, f e.2)) =
        (insertInto name value es).map fun e => (e.1, f e.2) := by
    intro name value es
    induction es with
    | nil => rfl
    | cons e rest ih =>
        rw [List.map_cons, insertInto, insertInto]
        split
        · rfl
        · split
          · rfl
          · rw [List.map_cons, ih]
  -- the induction runs along the writing of the entries, from any map
  suffices hfrom : ∀ m : NameMap β,
      (entries.map fun e => (e.1, f e.2)).foldl (fun m e => m.insert e.1 e.2) (m.map f) =
        (entries.foldl (fun m e => m.insert e.1 e.2) m).map f from hfrom ∅
  induction entries with
  | nil => exact fun m => rfl
  | cons e rest ih =>
      intro m
      have hwrite : (m.map f).insert e.1 (f e.2) = (m.insert e.1 e.2).map f :=
        congrArg NameMap.mk (hinsert e.1 e.2 m.entries)
      rw [List.map_cons, List.foldl_cons, List.foldl_cons, hwrite, ih]

include h in
theorem Dataset.checkColumn_relabel [Numeric α] (rowCount : Nat) (c : Column α) :
    checkColumn rowCount (c.relabel σ) = checkColumn rowCount c := by
  have hempty : (σ c.var).labels.isEmpty = c.var.labels.isEmpty := (h.perm c.var).isEmpty_eq.symm
  have hcells : (σ c.var).checkCell (α := α) = c.var.checkCell := funext (h.checkCell_eq c.var)
  simp only [checkColumn, Column.relabel, h.name_eq, h.scale_eq, hempty, hcells]

include h in
/-- **A dataset is made of the same columns in both orders**, and it is the one with its variables
changed. -/
theorem Dataset.ofColumns_relabel [Numeric α] (columns : List (Column α)) :
    ofColumns (columns.map (·.relabel σ)) = (ofColumns columns).map (·.relabel σ) := by
  have hcount : ((columns.map (·.relabel σ)).head?.map fun c => c.cells.length) =
      columns.head?.map fun c => c.cells.length := by
    rw [List.head?_map, Option.map_map]
    rfl
  have hcheck : ∀ n, (columns.map (·.relabel σ)).forM (checkColumn n) =
      columns.forM (checkColumn n) := by
    intro n
    rw [List.forM_eq_forM, List.forM_map]
    exact congrArg _ (funext (checkColumn_relabel h n))
  have hentries : (columns.map (·.relabel σ)).map (fun c => (c.var.name, c)) =
      (columns.map fun c => (c.var.name, c)).map fun e => (e.1, e.2.relabel σ) := by
    rw [List.map_map, List.map_map]
    exact List.map_congr_left fun c _ => Prod.ext (h.name_eq c.var) rfl
  rw [ofColumns, ofColumns, hcount, hcheck, hentries, NameMap.ofList_map]
  cases columns.forM (checkColumn _) <;> rfl

variable {d : Dataset α}

theorem Dataset.column_relabel (name : String) :
    (d.relabel σ).column name = (d.column name).map (·.relabel σ) := by
  rw [column, column, relabel, NameMap.get?_map]
  cases d.columns.get? name <;> rfl

theorem Dataset.findVariable_relabel (name : String) :
    (d.relabel σ).findVariable name = (d.findVariable name).map σ := by
  rw [findVariable, findVariable, column_relabel]
  cases d.column name <;> rfl

theorem Dataset.keyValue_relabel (row : Nat) : (d.relabel σ).keyValue row = d.keyValue row := by
  have hkey : (d.relabel σ).key = d.key := rfl
  rw [keyValue, keyValue, hkey]
  cases d.key with
  | none => rfl
  | some name =>
      show ((d.columns.map (·.relabel σ)).get? name >>= fun c => c.cells[row]?) = _
      rw [NameMap.get?_map]
      cases hc : d.columns.get? name with
      | none => simp [hc]
      | some c => simp [hc, Column.relabel]

include h

/-- **The same rows satisfy a condition.** -/
theorem Dataset.satisfies_relabel [Numeric α] (row : Nat)
    (filters : List (Column α × Condition α)) :
    satisfies row (filters.map fun f => (f.1.relabel σ, f.2)) = satisfies row filters := by
  induction filters with
  | nil => rfl
  | cons f rest ih =>
      rw [List.map_cons, satisfies, satisfies]
      simp only [Column.relabel, h.compare_eq] at ih ⊢
      rw [ih]

theorem Dataset.select_relabel [Numeric α] (name : String) (conditions : List (Condition α)) :
    (d.relabel σ).select name conditions = d.select name conditions := by
  have hfilters : (conditions.mapM fun c : Condition α => do
        return (← (d.relabel σ).column c.column, c)) =
      (conditions.mapM fun c : Condition α => do return (← d.column c.column, c)).map
        (List.map fun f : Column α × Condition α => (f.1.relabel σ, f.2)) := by
    refine mapM_eq_map_mapM fun c _ => ?_
    rw [column_relabel]
    cases d.column c.column <;> rfl
  rw [select, select, column_relabel, hfilters]
  cases d.column name with
  | error err => rfl
  | ok column =>
      cases (conditions.mapM fun c : Condition α => do return (← d.column c.column, c)) with
      | error err => rfl
      | ok filters =>
          simp only [Except.map, ok_bind, Dataset.satisfies_relabel h]
          rfl

end Data

/-! ### Selections -/

/-- A binding with its variable changed. -/
def Binding.relabel (σ : Variable → Variable) (b : Binding α) : Binding α :=
  { b with var := b.var.map σ }

section Selections

variable {σ : Variable → Variable} {b : Binding α}

@[simp] theorem Binding.rows_relabel : (b.relabel σ).rows = b.rows := rfl

@[simp] theorem Binding.isLiteral_relabel : (b.relabel σ).isLiteral = b.isLiteral :=
  Option.isNone_map

theorem Binding.commonRows_relabel (bindings : List (Binding α)) :
    Binding.commonRows (bindings.map (·.relabel σ)) = Binding.commonRows bindings := by
  cases bindings with
  | nil => rfl
  | cons b rest =>
      rw [List.map_cons, commonRows, commonRows]
      simp only [List.all_map, Function.comp_def, rows_relabel]

variable [Numeric α] (h : Variable.ReordersLabels σ)

include h

theorem checkEquality_relabel (v : Option Variable) (literal : Option (Cell α)) :
    checkEquality (v.map σ) literal = checkEquality v literal := by
  cases v with
  | none => rfl
  | some v =>
      cases literal with
      | none => rfl
      | some comparand => exact h.checkComparand_eq v comparand

theorem checkOrder_relabel (text : String) (comparison : Comparison) (v : Option Variable)
    (comparand : Cell α) :
    checkOrder text comparison (v.map σ) comparand = checkOrder text comparison v comparand := by
  cases v with
  | none => rfl
  | some v => exact congrArg (Except.map _) (h.comparandKey_eq v comparison comparand)

theorem any_admits_relabel (comparison : Comparison) (v : Option Variable)
    (comparand cell : Cell α) :
    ((v.map σ).any fun v => v.admits comparison comparand cell) =
      v.any fun v => v.admits comparison comparand cell := by
  cases v with
  | none => rfl
  | some v =>
      simp only [Option.map_some, Option.any_some, Variable.admits, accepts, h.compare_eq]

theorem Binding.ofColumn_relabel {d : Dataset α} (name : String) :
    ofColumn (d.relabel σ) name = (ofColumn d name).map (·.relabel σ) := by
  rw [ofColumn, ofColumn, Dataset.select_relabel h, Dataset.findVariable_relabel]
  cases d.select name [] with
  | error err => rfl
  | ok entries => cases d.findVariable name <;> rfl

variable [Tails α] [NumberText α] {d : Dataset α} {ctx : Context α} {e : Expression α}

/-- A selection takes the same cells, whatever the order of nominal labels, or it fails in the same
way. -/
theorem Expression.Selects.evaluateBinding_relabel (he : e.Selects) :
    evaluateBinding (d.relabel σ) ctx e = (evaluateBinding d ctx e).map (·.relabel σ) := by
  induction he with
  | column name =>
      rw [evaluateBinding, evaluateBinding, evaluate, evaluate, Binding.ofColumn_relabel h]
      cases Binding.ofColumn d name <;> rfl
  | literal value =>
      rw [evaluateBinding, evaluateBinding, evaluate, evaluate]
      rfl
  | @filter comparison left right _ _ ihleft ihright =>
      rw [evaluateBinding, evaluateBinding]
      by_cases hordered : comparison.isOrdered = true
      · cases hright : right.literal? with
        | none =>
            rw [evaluate_filter_ordered_none hordered hright,
              evaluate_filter_ordered_none hordered hright]
            rfl
        | some comparand =>
            rw [evaluate_filter_ordered hordered hright, evaluate_filter_ordered hordered hright,
              ihleft]
            cases evaluateBinding d ctx left with
            | error err => rfl
            | ok l =>
                dsimp only [Except.map, ok_bind]
                rw [Binding.relabel, checkOrder_relabel h]
                simp only [any_admits_relabel h]
                cases checkOrder _ comparison l.var comparand <;> rfl
      · rw [evaluate_filter_equality hordered, evaluate_filter_equality hordered, ihleft, ihright]
        cases evaluateBinding d ctx left with
        | error err => rfl
        | ok l =>
            cases evaluateBinding d ctx right with
            | error err => rfl
            | ok r =>
                dsimp only [Except.map, ok_bind]
                rw [show (l.relabel σ).var = l.var.map σ from rfl, checkEquality_relabel h]
                cases checkEquality l.var right.literal? <;> rfl

omit h in
/-- What evaluates to cells is a selection. -/
theorem selects_of_evaluate :
    ∀ {e : Expression α} {b : Binding α}, evaluate d ctx e = .ok (.data b) → e.Selects
  | .column name, _, _ => .column name
  | .literal value, _, _ => .literal value
  | .filter comparison left right, b, hb => by
      obtain ⟨l, hl, -, -⟩ := exists_of_evaluate_filter hb
      refine .filter comparison (selects_of_evaluate hl) ?_
      by_cases hordered : comparison.isOrdered = true
      · cases right with
        | literal value => exact .literal value
        | _ =>
            rw [evaluate_filter_ordered_none hordered rfl] at hb
            cases hb
      · rw [evaluate_filter_equality hordered] at hb
        obtain ⟨_, -, hb⟩ := bind_eq_ok_iff.1 hb
        obtain ⟨r, hr, -⟩ := bind_eq_ok_iff.1 hb
        exact selects_of_evaluate (evaluateBinding_eq_ok_iff.1 hr)
  -- nothing else has cells to draw from
  | .hypothesis _ _ _, _, hb => nomatch drawnFrom_of_evaluate hb
  | .mean _, _, hb => nomatch drawnFrom_of_evaluate hb
  | .median _, _, hb => nomatch drawnFrom_of_evaluate hb

/-- **Selections do not depend on the order of nominal labels.** -/
theorem evaluateBinding_relabel {b : Binding α} (hb : evaluateBinding d ctx e = .ok b) :
    evaluateBinding (d.relabel σ) ctx e = .ok (b.relabel σ) := by
  have hselects : e.Selects := selects_of_evaluate (evaluateBinding_eq_ok_iff.1 hb)
  rw [hselects.evaluateBinding_relabel h, hb]
  rfl

/-- The operands of a hypothesis select the same cells. -/
theorem mapM_evaluateBinding_relabel {operands : List (Expression α)} {bindings : List (Binding α)}
    (hbindings : operands.mapM (evaluateBinding d ctx) = .ok bindings) :
    operands.mapM (evaluateBinding (d.relabel σ) ctx) = .ok (bindings.map (·.relabel σ)) := by
  rw [mapM_eq_ok_iff] at hbindings ⊢
  rw [List.forall₂_map_right_iff]
  exact hbindings.imp fun _ _ hb => evaluateBinding_relabel h hb

end Selections

/-! ### Predictions -/

section Predictions

variable {σ : Variable → Variable} {bindings : List (Binding α)} {predictions : List Prediction}

/-- The categorical variables among some bindings. -/
def factorsOf (bindings : List (Binding α)) : List Variable :=
  (bindings.filterMap (·.var)).filter (·.scale.isCategorical)

/-- Predictions are accepted exactly if the groups of each order are labels of one factor. -/
theorem checkPredictions_eq_ok_iff : checkPredictions bindings predictions = .ok () ↔
    ∀ greater lesser, .groupOrder greater lesser ∈ predictions →
      ∃ v ∈ factorsOf bindings, greater ∈ v.labels ∧ lesser ∈ v.labels := by
  rw [checkPredictions, forM_eq_ok_iff]
  constructor
  · intro hchecked greater lesser hmem
    have hprediction := hchecked _ hmem
    by_cases hany : (factorsOf bindings).any fun v =>
        (v.rankOf greater).isSome && (v.rankOf lesser).isSome
    · obtain ⟨v, hv, hranks⟩ := List.any_eq_true.1 hany
      rw [Bool.and_eq_true, Variable.isSome_rankOf, Variable.isSome_rankOf] at hranks
      exact ⟨v, hv, hranks⟩
    · rw [factorsOf] at hany
      dsimp only at hprediction
      rw [if_neg hany] at hprediction
      split at hprediction <;> cases hprediction
  · intro hgroups prediction hmem
    cases prediction with
    | groupOrder greater lesser =>
        obtain ⟨v, hv, hranks⟩ := hgroups greater lesser hmem
        refine if_pos (List.any_eq_true.2 ⟨v, hv, ?_⟩)
        rw [Bool.and_eq_true, Variable.isSome_rankOf, Variable.isSome_rankOf]
        exact hranks
    | positive => rfl
    | negative => rfl

/-- The groups of a prediction are declared in both orders. -/
theorem checkPredictions_relabel (h : Variable.ReordersLabels σ)
    (hchecked : checkPredictions bindings predictions = .ok ()) :
    checkPredictions (bindings.map (·.relabel σ)) predictions = .ok () := by
  rw [checkPredictions_eq_ok_iff] at hchecked ⊢
  intro greater lesser hmem
  obtain ⟨v, hv, hgreater, hlesser⟩ := hchecked greater lesser hmem
  refine ⟨σ v, ?_, (h.perm v).mem_iff.1 hgreater, (h.perm v).mem_iff.1 hlesser⟩
  obtain ⟨hvar, hscale⟩ := List.mem_filter.1 hv
  obtain ⟨b, hb, hbvar⟩ := List.mem_filterMap.1 hvar
  refine List.mem_filter.2 ⟨List.mem_filterMap.2 ⟨b.relabel σ, List.mem_map_of_mem hb, ?_⟩, ?_⟩
  · rw [Binding.relabel, hbvar]
    rfl
  · rwa [h.scale_eq]

end Predictions

/-! ### Annotated variables -/

/-- A bound variable with its variable changed. -/
def AnnotatedVariable.relabel (σ : Variable → Variable) (a : AnnotatedVariable α) :
    AnnotatedVariable α :=
  { a with binding := a.binding.relabel σ, var := σ a.var }

section Annotated

variable {σ : Variable → Variable} (h : Variable.ReordersLabels σ) [Numeric α]

include h

/-- The number of labels and the numbers of a variable do not depend on the order of labels. -/
theorem variableProperties_relabel [Tails α] (b : Binding α) (v : Variable) :
    variableProperties (b.relabel σ) (σ v) = variableProperties b v := by
  have hkeys : orderKeys (b.relabel σ) (σ v) = orderKeys b v :=
    List.filterMap_congr fun cell _ => h.orderKey_eq v cell
  rw [variableProperties, variableProperties, hkeys, h.scale_eq, (h.perm v).length_eq]
  rfl

theorem annotate_relabel [Tails α] {design : Design α} {kind : StudyKind} (b : Binding α) :
    annotate design kind (b.relabel σ) = (annotate design kind b).map (·.relabel σ) := by
  obtain ⟨entries, var⟩ := b
  cases var with
  | none => rfl
  | some v =>
      have hproperties := variableProperties_relabel h ⟨entries, some v⟩ v
      show Except.ok (AnnotatedVariable.mk _ (σ v) (design.roleOf kind (σ v).name) _) =
        Except.ok (AnnotatedVariable.mk _ (σ v) (design.roleOf kind v.name) _)
      rw [h.name_eq]
      exact congrArg _ (congrArg _ hproperties)

variable {d : Dataset α} (factor outcome e r : AnnotatedVariable α)

/-- The group of a label does not depend on the order of labels. -/
theorem groupRows_relabel (label : String) :
    groupRows (d.relabel σ) (factor.relabel σ) (outcome.relabel σ) label =
      groupRows d factor outcome label := by
  rw [groupRows, groupRows, Dataset.select_relabel h]
  simp only [AnnotatedVariable.relabel, Binding.rows_relabel, h.name_eq, h.orderKey_eq]

theorem alignedKeys_relabel : alignedKeys (e.relabel σ) (r.relabel σ) = alignedKeys e r := by
  simp only [alignedKeys, AnnotatedVariable.relabel, h.orderKey_eq]
  rfl

theorem correlationProperties_relabel [Tails α] (base : PairProperties α) :
    correlationProperties (e.relabel σ) (r.relabel σ) base = correlationProperties e r base := by
  rw [correlationProperties, correlationProperties, alignedKeys_relabel h]
  simp only [AnnotatedVariable.relabel, h.name_eq, h.scale_eq]

omit [Numeric α] in
theorem baseProperties_relabel :
    baseProperties (e.relabel σ) (r.relabel σ) = baseProperties e r := by
  simp only [baseProperties, AnnotatedVariable.relabel, h.name_eq, h.scale_eq]

end Annotated

/-! ### Labelled values -/

section Labelled

variable {β : Type} (f : String → β) (names : List String)

theorem map_fst_labelled : (names.map fun label => (label, f label)).map (·.1) = names := by
  rw [List.map_map]
  exact List.map_id _

theorem map_snd_labelled : (names.map fun label => (label, f label)).map (·.2) = names.map f := by
  rw [List.map_map]
  rfl

end Labelled

/-! ### Groups by label -/

section Groups

variable [Numeric α] {d : Dataset α} {factor outcome : AnnotatedVariable α}

/-- The group of a label; no rows if it cannot be formed. -/
def groupCells (d : Dataset α) (factor outcome : AnnotatedVariable α) (label : String) :
    RowValues α :=
  (groupRows d factor outcome label).toOption.getD []

/-- The labels of a factor that have observations. -/
def occupiedLabels (d : Dataset α) (factor outcome : AnnotatedVariable α) : List String :=
  factor.var.labels.filter fun label => !(groupCells d factor outcome label).isEmpty

theorem groupRows_eq_groupCells {label : String} {cells : RowValues α}
    (h : groupRows d factor outcome label = .ok cells) :
    groupRows d factor outcome label = .ok (groupCells d factor outcome label) := by
  rw [groupCells, h]
  rfl

/-- **The groups of a factor, label by label.** -/
theorem groupsOf_eq_ok_iff {groups : List (String × RowValues α)} :
    groupsOf d factor outcome = .ok groups ↔
      (∀ label ∈ factor.var.labels, ∃ cells, groupRows d factor outcome label = .ok cells) ∧
        groups = (occupiedLabels d factor outcome).map fun label =>
          (label, groupCells d factor outcome label) := by
  have hall : (∀ label ∈ factor.var.labels, ∃ cells, groupRows d factor outcome label = .ok cells) →
      (factor.var.labels.mapM fun label => do
        return (label, ← groupRows d factor outcome label)) =
        .ok (factor.var.labels.map fun label => (label, groupCells d factor outcome label)) := by
    intro hlabels
    refine mapM_of_eq_ok _ fun label hlabel => ?_
    obtain ⟨cells, hgroup⟩ := hlabels label hlabel
    rw [groupRows_eq_groupCells hgroup]
    rfl
  rw [groupsOf, bind_eq_ok_iff]
  constructor
  · rintro ⟨all, hmap, hgroups⟩
    have hlabels : ∀ label ∈ factor.var.labels,
        ∃ cells, groupRows d factor outcome label = .ok cells := by
      intro label hlabel
      obtain ⟨_, hgroup⟩ := exists_mapM_eq_ok_iff.1 ⟨all, hmap⟩ label hlabel
      obtain ⟨cells, hgroup, -⟩ := bind_eq_ok_iff.1 hgroup
      exact ⟨cells, hgroup⟩
    obtain rfl := Except.ok.inj (hmap.symm.trans (hall hlabels))
    obtain rfl := Except.ok.inj hgroups
    refine ⟨hlabels, ?_⟩
    rw [List.filter_map]
    rfl
  · rintro ⟨hlabels, rfl⟩
    refine ⟨_, hall hlabels, ?_⟩
    rw [List.filter_map]
    rfl

/-- **A change of the order of labels reorders the groups.** -/
theorem exists_groupsOf_relabel {σ : Variable → Variable} (h : Variable.ReordersLabels σ)
    {groups : List (String × RowValues α)} (hgroups : groupsOf d factor outcome = .ok groups) :
    ∃ (labels labels' : List String) (cells : String → RowValues α), labels.Perm labels' ∧
      groups = labels.map (fun label => (label, cells label)) ∧
      groupsOf (d.relabel σ) (factor.relabel σ) (outcome.relabel σ) =
        .ok (labels'.map fun label => (label, cells label)) := by
  obtain ⟨hlabels, rfl⟩ := groupsOf_eq_ok_iff.1 hgroups
  have hcells : groupCells (d.relabel σ) (factor.relabel σ) (outcome.relabel σ) =
      groupCells d factor outcome := by
    funext label
    rw [groupCells, groupCells, groupRows_relabel h]
  have hperm := h.perm factor.var
  refine ⟨_, occupiedLabels (d.relabel σ) (factor.relabel σ) (outcome.relabel σ), _, ?_, rfl, ?_⟩
  · rw [occupiedLabels, occupiedLabels, hcells]
    exact hperm.filter _
  · refine groupsOf_eq_ok_iff.2 ⟨fun label hlabel => ?_, by rw [hcells]⟩
    rw [groupRows_relabel h]
    exact hlabels label (hperm.mem_iff.2 hlabel)

omit [Numeric α] in
/-- Related groups are aligned by cells that do not change. -/
theorem alignPaired_relabel [NumberText α] {σ : Variable → Variable} (name : String)
    (groups : List (RowValues α)) :
    alignPaired (d.relabel σ) name groups = alignPaired d name groups := by
  have hkey : (d.relabel σ).key = d.key := rfl
  have hidentified : identified (d.relabel σ) = identified d := by
    funext group
    simp only [identified, Dataset.keyValue_relabel]
  rw [alignPaired, alignPaired, hkey, hidentified]

end Groups

/-! ### Cross-tabulations by label -/

section Contingency

/-- The place of a label among those of a variable, counted from one. -/
def Variable.place (v : Variable) (label : String) : Nat :=
  v.labels.idxOf label + 1

theorem Variable.rankOf_eq (v : Variable) (label : String) :
    v.rankOf label = if label ∈ v.labels then some (v.place label) else none := by
  split
  · exact v.rankOf_eq_some ‹_›
  · rw [rankOf, List.idxOf?_eq_none_iff.2 ‹_›]
    rfl

/-- The labels that have a place in a list. -/
def occurringNames (v : Variable) (labels : List String) : List String :=
  (occurringLabels v (labels.map v.place)).map (·.1)

variable {v : Variable} {labels : List String}

/-- Each occurring label is listed with its place. -/
theorem eq_place_of_mem_occurringLabels (hlabels : ∀ label ∈ labels, label ∈ v.labels)
    {x : String × Nat} (hx : x ∈ occurringLabels v (labels.map v.place)) :
    x.1 ∈ labels ∧ x.2 = v.place x.1 := by
  obtain ⟨label, rank⟩ := x
  obtain ⟨hmem, hrank⟩ := List.mem_filter.1 hx
  obtain ⟨label', hlabel', rfl⟩ := List.mem_map.1 (List.contains_iff_mem.1 hrank)
  rw [List.mk_mem_zipIdx_iff_le_and_getElem?_sub, Variable.place, Nat.add_sub_cancel,
    List.getElem?_eq_getElem (List.idxOf_lt_length_of_mem (hlabels label' hlabel')),
    List.getElem_idxOf] at hmem
  obtain rfl := Option.some.inj hmem.2
  exact ⟨hlabel', rfl⟩

theorem occurringLabels_eq (hlabels : ∀ label ∈ labels, label ∈ v.labels) :
    occurringLabels v (labels.map v.place) =
      (occurringNames v labels).map fun label => (label, v.place label) := by
  rw [occurringNames, List.map_map]
  conv_lhs => rw [← List.map_id (occurringLabels v _)]
  refine List.map_congr_left fun x hx => ?_
  exact Prod.ext rfl (eq_place_of_mem_occurringLabels hlabels hx).2

/-- A label occurs as often as it is listed or not at all. -/
theorem mem_occurringNames (hlabels : ∀ label ∈ labels, label ∈ v.labels) {label : String} :
    label ∈ occurringNames v labels ↔ label ∈ labels := by
  constructor
  · intro hmem
    obtain ⟨x, hx, rfl⟩ := List.mem_map.1 hmem
    exact (eq_place_of_mem_occurringLabels hlabels hx).1
  · intro hmem
    have hrank : v.rankOf label = some (v.place label) := v.rankOf_eq_some (hlabels label hmem)
    obtain ⟨x, hx, hplace⟩ := List.mem_map.1 (mem_occurringLabels hrank (List.mem_map_of_mem hmem))
    have hsame : v.labels.idxOf label = v.labels.idxOf x.1 := Nat.succ.inj
      (hplace.symm.trans (eq_place_of_mem_occurringLabels hlabels hx).2)
    exact List.mem_map.2 ⟨x, hx, ((List.idxOf_inj (hlabels label hmem)).1 hsame).symm⟩

theorem nodup_occurringNames (hlabels : ∀ label ∈ labels, label ∈ v.labels) :
    (occurringNames v labels).Nodup := by
  have hsnd : ((occurringNames v labels).map v.place).Nodup := by
    have hranks : (occurringNames v labels).map v.place =
        (occurringLabels v (labels.map v.place)).map (·.2) := by
      rw [occurringLabels_eq hlabels, List.map_map]
      rfl
    rw [hranks]
    exact (List.nodup_range' 1).sublist (map_snd_occurringLabels_sublist v _)
  exact hsnd.of_map _

/-- **The labels that occur** are the same in both orders. -/
theorem occurringNames_perm {σ : Variable → Variable} (h : Variable.ReordersLabels σ)
    (hlabels : ∀ label ∈ labels, label ∈ v.labels) :
    (occurringNames v labels).Perm (occurringNames (σ v) labels) := by
  have hlabels' : ∀ label ∈ labels, label ∈ (σ v).labels := fun label hlabel =>
    (h.perm v).mem_iff.1 (hlabels label hlabel)
  refine (List.perm_ext_iff_of_nodup (nodup_occurringNames hlabels)
    (nodup_occurringNames hlabels')).2 fun label => ?_
  rw [mem_occurringNames hlabels, mem_occurringNames hlabels']

variable {e r : AnnotatedVariable α}

/-- The labels of two variables at the rows where both are bound. -/
def alignedLabels (e r : AnnotatedVariable α) : List (String × String) :=
  e.binding.entries.filterMap fun (row, cell) => do
    let a ← cell.text?
    let b ← (← r.binding.cellAt row).text?
    if a ∈ e.var.labels ∧ b ∈ r.var.labels then some (a, b) else none

theorem mem_labels_of_mem_alignedLabels {p : String × String} (hp : p ∈ alignedLabels e r) :
    p.1 ∈ e.var.labels ∧ p.2 ∈ r.var.labels := by
  obtain ⟨entry, -, hp⟩ := List.mem_filterMap.1 hp
  obtain ⟨a, -, hp⟩ := Option.bind_eq_some_iff.1 hp
  obtain ⟨cell, -, hp⟩ := Option.bind_eq_some_iff.1 hp
  obtain ⟨b, -, hp⟩ := Option.bind_eq_some_iff.1 hp
  split at hp
  · obtain rfl := Option.some.inj hp
    assumption
  · cases hp

/-- **The same labels meet** in both orders. -/
theorem alignedLabels_relabel {σ : Variable → Variable} (h : Variable.ReordersLabels σ) :
    alignedLabels (e.relabel σ) (r.relabel σ) = alignedLabels e r := by
  have hmem : ∀ (v : Variable) (label : String), label ∈ (σ v).labels ↔ label ∈ v.labels :=
    fun v label => (h.perm v).mem_iff.symm
  simp only [alignedLabels, AnnotatedVariable.relabel, hmem]
  rfl

theorem alignedRanks_eq_map : alignedRanks e r =
    (alignedLabels e r).map fun p => (e.var.place p.1, r.var.place p.2) := by
  rw [alignedRanks, alignedLabels, List.map_filterMap]
  refine List.filterMap_congr fun entry _ => ?_
  obtain ⟨row, cell⟩ := entry
  simp only [Variable.rankOf_eq]
  cases cell.text? with
  | none => rfl
  | some a =>
      cases r.binding.cellAt row with
      | none => simp
      | some other =>
          cases hb : other.text? with
          | none => simp [hb]
          | some b =>
              by_cases ha : a ∈ e.var.labels <;> by_cases hb' : b ∈ r.var.labels <;>
                simp [ha, hb, hb']

/-- The places of two labels occur together as often as the labels do. -/
theorem count_places {a b : String} {observed : List (String × String)}
    (hobserved : ∀ p ∈ observed, p.1 ∈ e.var.labels ∧ p.2 ∈ r.var.labels) :
    (observed.map fun p => (e.var.place p.1, r.var.place p.2)).count
        (e.var.place a, r.var.place b) = observed.count (a, b) := by
  rw [List.count, List.countP_map, List.count]
  refine List.countP_congr fun p hp => ?_
  obtain ⟨ha, hb⟩ := hobserved p hp
  simp only [Function.comp_apply, beq_iff_eq, Prod.ext_iff, Variable.place, Nat.add_right_cancel_iff,
    List.idxOf_inj ha, List.idxOf_inj hb]

variable [Numeric α]

/-- **A cross-tabulation counts pairs of labels.** -/
theorem contingencyProperties_eq (base : PairProperties α) :
    let observed := alignedLabels e r
    let rows := occurringNames e.var (observed.map (·.1))
    let cols := occurringNames r.var (observed.map (·.2))
    let table := rows.map fun a => cols.map fun b => (Numeric.ofNat (observed.count (a, b)) : α)
    contingencyProperties e r base = { base with
      shape := .contingency rows.length cols.length
      samples := .contingency rows cols table
      sampleSizes := .ofList [(e.var.name, observed.length), (r.var.name, observed.length)]
      minExpectedCount := least? (expectedCounts table).flatten } := by
  intro observed rows cols table
  have hobserved : ∀ p ∈ observed, p.1 ∈ e.var.labels ∧ p.2 ∈ r.var.labels :=
    fun p hp => mem_labels_of_mem_alignedLabels hp
  have hrows : occurringLabels e.var ((alignedRanks e r).map (·.1)) =
      rows.map fun label => (label, e.var.place label) := by
    rw [← occurringLabels_eq (List.forall_mem_map.2 fun p hp => (hobserved p hp).1),
      alignedRanks_eq_map, List.map_map, List.map_map]
    rfl
  have hcols : occurringLabels r.var ((alignedRanks e r).map (·.2)) =
      cols.map fun label => (label, r.var.place label) := by
    rw [← occurringLabels_eq (List.forall_mem_map.2 fun p hp => (hobserved p hp).2),
      alignedRanks_eq_map, List.map_map, List.map_map]
    rfl
  have htable : ((rows.map fun label => (label, e.var.place label)).map fun x =>
      (cols.map fun label => (label, r.var.place label)).map fun y =>
        (Numeric.ofNat ((alignedRanks e r).count (x.2, y.2)) : α)) = table := by
    rw [List.map_map]
    refine List.map_congr_left fun a _ => ?_
    rw [Function.comp_apply, List.map_map]
    refine List.map_congr_left fun b _ => ?_
    rw [Function.comp_apply, alignedRanks_eq_map, count_places hobserved]
  have hlength : (alignedRanks e r).length = observed.length := by
    rw [alignedRanks_eq_map, List.length_map]
  rw [contingencyProperties]
  dsimp only
  rw [hrows, hcols, htable, hlength, map_fst_labelled, map_fst_labelled, List.length_map,
    List.length_map]

end Contingency

end StudyAnalysis
