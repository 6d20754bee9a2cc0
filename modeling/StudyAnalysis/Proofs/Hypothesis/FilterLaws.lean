/-
**Laws of filters.**

Two laws that users of filters rely on without thinking of them.  Filters for equality and for
inequality of the same operands share out the rows on the left: none is lost and none is kept by
both, however many rows are missing on the right.  And a chain of filters by literals is one
selection of rows, the same that the data table makes by itself, so neither the order of the filters
nor their repetition matters.

Main definitions:

* `StudyAnalysis.Binding.SharedOut` — two selections share out the rows of an operand;
* `StudyAnalysis.Expression.chain` — filters of a column by literals, one after the other.

Main results:

* `StudyAnalysis.Binding.sharedOut_keep` — filtering by a match and by its absence shares out rows;
* `StudyAnalysis.evaluate_eq_ne_sharedOut` — **filters for equality and inequality share out the
  rows on the left**, or fail alike;
* `StudyAnalysis.evaluate_chain` — a chain is its checks and one selection;
* `StudyAnalysis.Dataset.select_chain` — which cells the data table selects by the same conditions;
* `StudyAnalysis.evaluate_chain_eq_select` — **a chain is a selection of the data table**.
-/

import StudyAnalysis.Proofs.Hypothesis.FilterChecks

set_option autoImplicit false
set_option relaxedAutoImplicit false

namespace StudyAnalysis

open Fallible

variable {α : Type} [Numeric α]

/-! ### Equality and inequality -/

namespace Binding

/-- Two selections share out the rows of an operand by whether another operand has an equal cell at
them. -/
structure SharedOut (l r equal unequal : Binding α) : Prop where
  /-- Both selections have rows of the operand, in its order and with its cells. -/
  narrows_equal : equal.entries.Sublist l.entries ∧ equal.var = l.var
  narrows_unequal : unequal.entries.Sublist l.entries ∧ unequal.var = l.var
  /-- Each row of the operand is in one of them and not in both. -/
  exactly_one : ∀ row ∈ l.rows, Xor (row ∈ equal.rows) (row ∈ unequal.rows)
  /-- A row is in the first one exactly if it is bound on both sides and the cells are equal. -/
  mem_equal : ∀ row, row ∈ equal.rows ↔
    ∃ cell other, (row, cell) ∈ l.entries ∧ (row, other) ∈ r.entries ∧ cell.agrees other = true
  /-- A row that the other operand misses is in the second one. -/
  of_not_mem : ∀ row ∈ l.rows, row ∉ r.rows → row ∈ unequal.rows

omit [Numeric α] in
theorem mem_rows_keep {l : Binding α} {p : Nat × Cell α → Bool} {row : Nat} :
    row ∈ (l.keep p).rows ↔ ∃ cell, (row, cell) ∈ l.entries ∧ p (row, cell) = true := by
  simp only [rows, entries_keep, List.mem_map, List.mem_filter, Prod.exists, exists_and_right,
    exists_eq_right]

omit [Numeric α] in
/-- Of distinct rows each has one cell, by which it is kept. -/
theorem mem_rows_keep_of_mem {l : Binding α} (hrows : l.rows.Nodup) {p : Nat × Cell α → Bool}
    {row : Nat} {cell : Cell α} (hcell : (row, cell) ∈ l.entries) :
    row ∈ (l.keep p).rows ↔ p (row, cell) = true := by
  refine mem_rows_keep.trans ⟨?_, fun h => ⟨cell, hcell, h⟩⟩
  rintro ⟨cell', hcell', h⟩
  obtain ⟨⟩ := List.inj_on_of_nodup_map hrows hcell hcell' rfl
  exact h

/-- **Filtering by a match and by its absence shares out the rows.** -/
theorem sharedOut_keep {l r : Binding α} (hl : l.rows.Nodup) (hr : r.rows.Pairwise (· < ·)) :
    SharedOut l r (l.keep fun e => r.hasMatch e == true) (l.keep fun e => r.hasMatch e == false)
    where
  narrows_equal := ⟨List.filter_sublist, rfl⟩
  narrows_unequal := ⟨List.filter_sublist, rfl⟩
  exactly_one row hrow := by
    obtain ⟨⟨_, cell⟩, hcell, rfl⟩ := List.mem_map.1 hrow
    rw [mem_rows_keep_of_mem hl hcell, mem_rows_keep_of_mem hl hcell]
    cases r.hasMatch (_, cell) <;> decide
  mem_equal row := by
    simp only [mem_rows_keep, beq_true, hasMatch_iff hr, exists_and_left]
  of_not_mem row hrow hmissing := by
    obtain ⟨⟨_, cell⟩, hcell, rfl⟩ := List.mem_map.1 hrow
    rw [mem_rows_keep_of_mem hl hcell, beq_iff_eq, Bool.eq_false_iff, ne_eq, hasMatch_iff hr]
    rintro ⟨other, hother, -⟩
    exact hmissing (List.mem_map.2 ⟨_, hother, rfl⟩)

end Binding

section Equality

variable [Tails α] [NumberText α]

/-- **Filters for equality and inequality share out the rows on the left**, or fail alike.  The
operands are any two expressions; a row that the right one misses is unequal. -/
theorem evaluate_eq_ne_sharedOut (d : Dataset α) (ctx : Context α) (left right : Expression α) :
    (∃ err, evaluate d ctx (.filter .eq left right) = .error err ∧
      evaluate d ctx (.filter .ne left right) = .error err) ∨
    ∃ l r equal unequal,
      evaluate d ctx left = .ok (.data l) ∧ evaluate d ctx right = .ok (.data r) ∧
      evaluate d ctx (.filter .eq left right) = .ok (.data equal) ∧
      evaluate d ctx (.filter .ne left right) = .ok (.data unequal) ∧
      l.SharedOut r equal unequal := by
  rw [evaluate_filter_equality (by decide), evaluate_filter_equality (by decide)]
  cases hl : evaluateBinding d ctx left with
  | error err => exact .inl ⟨err, rfl, rfl⟩
  | ok l =>
      cases hr : evaluateBinding d ctx right with
      | error err => exact .inl ⟨err, rfl, rfl⟩
      | ok r =>
          simp only [ok_bind]
          cases checkEquality l.var right.literal? with
          | error err => exact .inl ⟨err, rfl, rfl⟩
          | ok _ =>
              rw [evaluateBinding_eq_ok_iff] at hl hr
              have hrows : l.rows.Nodup :=
                (drawnFrom_of_evaluate hl).pairwise_rows.imp fun h => Nat.ne_of_lt h
              exact .inr ⟨l, r, _, _, hl, hr, rfl, rfl,
                Binding.sharedOut_keep hrows (drawnFrom_of_evaluate hr).pairwise_rows⟩

end Equality

/-! ### Chains of filters -/

section Chains

/-- The filters of a column by literals, one after the other. -/
def Expression.chain (name : String) (tests : List (Comparison × Cell α)) : Expression α :=
  tests.foldl (fun e t => .filter t.1 e (.literal t.2)) (.column name)

/-- The check of all filters of a chain. -/
def Variable.checkChain (v : Variable) (tests : List (Comparison × Cell α)) :
    Except (AnalysisError α) Unit :=
  tests.forM fun t => v.checkLiteral t.1 t.2

/-- Whether a cell passes all filters of a chain. -/
def Variable.admitsAll (v : Variable) (tests : List (Comparison × Cell α)) (cell : Cell α) : Bool :=
  tests.all fun t => v.admits t.1 t.2 cell

variable {v : Variable} {tests tests' : List (Comparison × Cell α)}

theorem Variable.checkChain_eq_ok_iff :
    v.checkChain tests = .ok () ↔ ∀ t ∈ tests, v.checkLiteral t.1 t.2 = .ok () :=
  forM_eq_ok_iff

/-- The check of a longer chain ends with the last filter. -/
theorem Variable.checkChain_concat (t : Comparison × Cell α) :
    v.checkChain (tests ++ [t]) = (do
      v.checkChain tests
      v.checkLiteral t.1 t.2) := by
  simp only [checkChain, List.forM_eq_forM, List.forM_append, List.forM_cons, List.forM_nil]
  cases v.checkLiteral t.1 t.2 <;> rfl

theorem Variable.admitsAll_concat (t : Comparison × Cell α) (cell : Cell α) :
    v.admitsAll (tests ++ [t]) cell = (v.admitsAll tests cell && v.admits t.1 t.2 cell) := by
  simp only [admitsAll, List.all_append, List.all_cons, List.all_nil, Bool.and_true]

/-- Only which filters a chain has matters to what it admits. -/
theorem Variable.admitsAll_congr (h : ∀ t, t ∈ tests' ↔ t ∈ tests) :
    v.admitsAll tests' = v.admitsAll tests := by
  funext cell
  rw [admitsAll, admitsAll, Bool.eq_iff_iff, List.all_eq_true, List.all_eq_true]
  simp only [h]

variable [Tails α] [NumberText α] {d : Dataset α} {ctx : Context α}

/-- **A filter by a literal** is its check and a selection by the cells. -/
theorem evaluate_filter_by_literal {left : Expression α} {l : Binding α}
    (hl : evaluate d ctx left = .ok (.data l)) (hv : l.var = some v) (comparison : Comparison)
    (value : Cell α) :
    evaluate d ctx (.filter comparison left (.literal value)) =
      (v.checkLiteral comparison value).map fun _ =>
        .data (l.keep fun e => v.admits comparison value e.2) := by
  have hleft : evaluateBinding d ctx left = .ok l := evaluateBinding_eq_ok_iff.2 hl
  by_cases hordered : comparison.isOrdered = true
  · rw [evaluate_filter_ordered hordered rfl, hleft, ok_bind, hv, Variable.checkLiteral,
      if_pos hordered, checkOrder]
    cases v.comparandKey comparison value <;> rfl
  · have hliteral : evaluateBinding d ctx (.literal value) = .ok (.ofLiteral d value) := by
      rw [evaluateBinding, evaluate]
      rfl
    -- the literal is broadcast, so it has a cell at every row of the selection
    have hkeep : (l.keep fun e => (Binding.ofLiteral d value).hasMatch e == (comparison == .eq)) =
        l.keep fun e => v.admits comparison value e.2 := by
      refine Binding.keep_congr fun e he => ?_
      have hrow : e.1 < d.rowCount := (drawnFrom_of_evaluate hl).row_lt (List.mem_map_of_mem he)
      rw [Variable.admits_of_not_isOrdered hordered, Binding.hasMatch,
        Binding.cellAt_ofLiteral value hrow, Option.any_some]
    rw [evaluate_filter_equality hordered, hleft, ok_bind, hliteral, ok_bind, hkeep, hv,
      Variable.checkLiteral, if_neg hordered, Expression.literal?, checkEquality]
    cases v.checkComparand value <;> rfl

/-- A filter by a literal fails if the operand does. -/
theorem evaluate_filter_literal_error {left : Expression α} {err : AnalysisError α}
    (hl : evaluate d ctx left = .error err) (comparison : Comparison) (value : Cell α) :
    evaluate d ctx (.filter comparison left (.literal value)) = .error err := by
  have hleft : evaluateBinding d ctx left = .error err := by
    rw [evaluateBinding, hl]
    rfl
  by_cases hordered : comparison.isOrdered = true
  · rw [evaluate_filter_ordered hordered rfl, hleft]
    rfl
  · rw [evaluate_filter_equality hordered, hleft]
    rfl

/-- Filters by literals, one after the other, are their checks and one selection. -/
theorem evaluate_foldl_filter {left : Expression α} {l : Binding α}
    (hl : evaluate d ctx left = .ok (.data l)) (hv : l.var = some v)
    (tests : List (Comparison × Cell α)) :
    evaluate d ctx (tests.foldl (fun e t => .filter t.1 e (.literal t.2)) left) =
      (v.checkChain tests).map fun _ => .data (l.keep fun e => v.admitsAll tests e.2) := by
  -- the chain grows at its right end
  induction tests using List.reverseRecOn with
  | nil =>
      rw [List.foldl_nil, hl]
      simp [Variable.checkChain, Variable.admitsAll, Except.map, Binding.keep]
  | append_singleton tests t ih =>
      rw [List.foldl_append, List.foldl_cons, List.foldl_nil, Variable.checkChain_concat]
      cases hcheck : v.checkChain tests with
      | error err =>
          rw [hcheck] at ih
          exact evaluate_filter_literal_error ih t.1 t.2
      | ok _ =>
          rw [hcheck] at ih
          rw [evaluate_filter_by_literal ih hv, Binding.keep_keep, ok_bind]
          simp only [Variable.admitsAll_concat]

/-- **A chain is its checks and one selection** of the cells of its column. -/
theorem evaluate_chain {name : String} {c : Column α} (hc : d.columns.get? name = some c)
    (tests : List (Comparison × Cell α)) :
    evaluate d ctx (.chain name tests) = (c.var.checkChain tests).map fun _ =>
      .data ⟨(c.entriesAt (List.range d.rowCount)).filter fun e => c.var.admitsAll tests e.2,
        some c.var⟩ := by
  have hcolumn : evaluate d ctx (.column name) =
      .ok (.data ⟨c.entriesAt (List.range d.rowCount), some c.var⟩) := by
    rw [evaluate, Binding.ofColumn_eq_ok hc]
    rfl
  exact evaluate_foldl_filter hcolumn rfl tests

/-- A chain fails if there is no column to start from. -/
theorem evaluate_chain_of_none {name : String} (hc : d.columns.get? name = none)
    (tests : List (Comparison × Cell α)) :
    evaluate d ctx (.chain name tests) = .error (.unknownVariable name) := by
  induction tests using List.reverseRecOn with
  | nil =>
      rw [Expression.chain, List.foldl_nil, evaluate, Binding.ofColumn, Dataset.select,
        Dataset.column, hc]
      rfl
  | append_singleton tests t ih =>
      rw [Expression.chain, List.foldl_append]
      exact evaluate_filter_literal_error ih t.1 t.2

/-! #### The same conditions in the data table -/

/-- The filters of a chain as conditions on the rows of a column. -/
def conditions (name : String) (tests : List (Comparison × Cell α)) : List (Condition α) :=
  tests.map fun t => ⟨name, t.1, t.2⟩

omit [Tails α] [NumberText α] in
/-- A row satisfies the conditions of a chain if its cell passes the filters. -/
theorem Dataset.satisfies_conditions {name : String} {c : Column α}
    (h : c.var.checkChain tests = .ok ()) {row : Nat} {cell : Cell α}
    (hcell : c.cells[row]? = some cell) :
    satisfies row ((conditions name tests).map (c, ·)) = .ok (c.var.admitsAll tests cell) := by
  rw [Variable.checkChain_eq_ok_iff] at h
  induction tests with
  | nil => rfl
  | cons t rest ih =>
      obtain ⟨ht, hrest⟩ := List.forall_mem_cons.1 h
      rw [conditions, List.map_cons, List.map_cons, satisfies, hcell]
      dsimp only
      rw [Variable.compare_eq_admits ht, ok_bind, Variable.admitsAll, List.all_cons]
      cases c.var.admits t.1 t.2 cell with
      | false => rfl
      | true => exact ih hrest

omit [Tails α] [NumberText α] in
/-- **The data table selects the cells that pass the filters**, if the filters are sound. -/
theorem Dataset.select_conditions {name : String} {c : Column α}
    (hc : d.columns.get? name = some c) (h : c.var.checkChain tests = .ok ()) :
    d.select name (conditions name tests) =
      .ok ((c.entriesAt (List.range d.rowCount)).filter fun e => c.var.admitsAll tests e.2) := by
  -- a row beyond the cells of the column satisfies at most the empty list of conditions
  let keep : Nat → Bool := fun row => (c.cells[row]?).elim tests.isEmpty (c.var.admitsAll tests)
  have hfilters : List.Forall₂ (fun p (f : Column α × Condition α) =>
      d.columns.get? p.column = some f.1 ∧ f.2 = p)
      (conditions name tests) ((conditions name tests).map (c, ·)) := by
    rw [List.forall₂_map_right_iff, List.forall₂_same]
    intro p hp
    obtain ⟨t, -, rfl⟩ := List.mem_map.1 hp
    exact ⟨hc, rfl⟩
  have hkeep : ∀ row,
      satisfies row ((conditions name tests).map (c, ·)) = .ok (keep row) := by
    intro row
    dsimp only [keep]
    cases hcell : c.cells[row]? with
    | some cell => exact satisfies_conditions h hcell
    | none =>
        cases tests with
        | nil => rfl
        | cons t rest =>
            rw [conditions, List.map_cons, List.map_cons, satisfies, hcell]
            rfl
  rw [select_eq_ok _ keep hc hfilters hkeep, ← Column.filter_entriesAt]
  refine congrArg Except.ok (List.filter_congr fun e he => ?_)
  dsimp only [keep]
  rw [(Column.mem_entriesAt.1 he).2]
  rfl

/-- **A chain of filters is a selection of the data table.**  If a chain of filters of a column by
literals evaluates, the data table selects the same rows and cells by the same conditions, and every
chain with the same filters, in any order and with any repetitions, evaluates to the same. -/
theorem evaluate_chain_eq_select {name : String} {x : Evaluated α}
    (h : evaluate d ctx (.chain name tests) = .ok x) :
    ∃ c entries, d.columns.get? name = some c ∧ x = .data ⟨entries, some c.var⟩ ∧
      d.select name (conditions name tests) = .ok entries ∧
      ∀ tests' : List (Comparison × Cell α), (∀ t, t ∈ tests' ↔ t ∈ tests) →
        evaluate d ctx (.chain name tests') = .ok x := by
  obtain ⟨c, hc⟩ : ∃ c, d.columns.get? name = some c := by
    rw [← Option.ne_none_iff_exists']
    intro hc
    rw [evaluate_chain_of_none hc] at h
    cases h
  rw [evaluate_chain hc, map_eq_ok_iff] at h
  obtain ⟨⟨⟩, hcheck, rfl⟩ := h
  refine ⟨c, _, hc, rfl, Dataset.select_conditions hc hcheck, fun tests' hmem => ?_⟩
  have hcheck' : c.var.checkChain tests' = .ok () :=
    Variable.checkChain_eq_ok_iff.2 fun t ht =>
      Variable.checkChain_eq_ok_iff.1 hcheck t ((hmem t).1 ht)
  rw [evaluate_chain hc, hcheck', Variable.admitsAll_congr hmem]
  rfl

end Chains

/-- Two filters of the grades are a selection of the table, and they may be swapped and repeated. -/
theorem evaluate_grades_chain :
    let ctx : Context Float := ⟨.standard, none, ⟨∅, ∅⟩⟩
    let tests : List (Comparison × Cell Float) := [(.ne, .text "low"), (.lt, .text "high")]
    let swapped : List (Comparison × Cell Float) :=
      [(.lt, .text "high"), (.ne, .text "low"), (.lt, .text "high")]
    let fair : Series Float := [(2, .text "fair"), (4, .text "fair")]
    ∃ v, evaluate grades ctx (.chain "grade" tests) = .ok (.data ⟨fair, some v⟩) ∧
      grades.select "grade" (conditions "grade" tests) = .ok fair ∧
      evaluate grades ctx (.chain "grade" swapped) = .ok (.data ⟨fair, some v⟩) := by
  intro ctx tests swapped fair
  have h : evaluate grades ctx (.chain "grade" tests) =
      .ok (.data ⟨fair, some ⟨"grade", .ordinal, some ["low", "fair", "high"]⟩⟩) := rfl
  obtain ⟨c, entries, hc, hx, hselect, hreordered⟩ := evaluate_chain_eq_select h
  obtain ⟨rfl, -⟩ := Binding.mk.inj (Evaluated.data.inj hx)
  refine ⟨_, h, hselect, hreordered swapped fun t => ?_⟩
  simp only [swapped, tests, List.mem_cons, List.not_mem_nil, or_false]
  tauto

end StudyAnalysis
