/-
**A filter checks its variable first and cannot fail afterwards.**

Both kinds of filters are a check followed by a selection.  The check looks at the variable on the
left and the literal on the right, never at a cell; once it has passed, every comparison of a cell
succeeds.  So whether a selection succeeds, and how it fails, is computed from the variables of the
columns alone, and two datasets with the same variables fail alike.

Main definitions:

* `StudyAnalysis.Binding.keep` — the cells of a binding that satisfy a predicate;
* `StudyAnalysis.checkEquality`, `StudyAnalysis.checkOrder` — the checks of the two kinds of filters;
* `StudyAnalysis.Expression.Selects` — columns, literals and filters of these;
* `StudyAnalysis.Expression.selected` — the variable of a selection or its failure, **computed
  without any data**.

Main results:

* `StudyAnalysis.filterEqual_eq_map_check`, `StudyAnalysis.filterOrdered_eq_map_check` — a filter is
  its check and a selection that cannot fail;
* `StudyAnalysis.Expression.Selects.selected_eq` — a selection fails exactly as the computation
  without data does;
* `StudyAnalysis.selections_fail_alike` — **datasets with the same variables fail alike**.
-/

import StudyAnalysis.Proofs.Hypothesis.Comparisons

set_option autoImplicit false
set_option relaxedAutoImplicit false

namespace StudyAnalysis

open Fallible

variable {α : Type}

/-! ### Selections that cannot fail -/

namespace Binding

/-- The cells of a binding that satisfy a predicate. -/
def keep (b : Binding α) (p : Nat × Cell α → Bool) : Binding α :=
  { b with entries := b.entries.filter p }

variable {b : Binding α} {p q : Nat × Cell α → Bool}

@[simp] theorem var_keep : (b.keep p).var = b.var := rfl

@[simp] theorem entries_keep : (b.keep p).entries = b.entries.filter p := rfl

theorem keep_keep : (b.keep p).keep q = b.keep fun e => p e && q e := by
  simp only [keep, List.filter_filter, Bool.and_comm]

theorem keep_congr (h : ∀ e ∈ b.entries, p e = q e) : b.keep p = b.keep q := by
  rw [keep, keep, List.filter_congr h]

/-- A test that always succeeds retains what its answers tell. -/
theorem retain_eq_keep {ε : Type} {test : Nat → Cell α → Except ε Bool}
    (h : ∀ e ∈ b.entries, test e.1 e.2 = .ok (p e)) : b.retain test = .ok (b.keep p) := by
  rw [retain, filterM_of_eq_ok p h]
  rfl

variable [Numeric α]

/-- Whether another binding has a cell at the row of an entry that is equal to the one there. -/
def hasMatch (b : Binding α) (e : Nat × Cell α) : Bool :=
  (b.cellAt e.1).any e.2.agrees

theorem hasMatch_iff (h : b.rows.Pairwise (· < ·)) {row : Nat} {cell : Cell α} :
    b.hasMatch (row, cell) = true ↔ ∃ other, (row, other) ∈ b.entries ∧ cell.agrees other := by
  simp only [hasMatch, Option.any_eq_true, cellAt_eq_some_iff h]

end Binding

variable [Numeric α]

/-! ### Comparisons after the check -/

namespace Variable

variable {v : Variable} {comparison : Comparison} {comparand : Cell α}

/-- The check of a filter by a literal: an ordered one needs a number to compare with, the others a
value of the variable. -/
def checkLiteral (v : Variable) (comparison : Comparison) (comparand : Cell α) :
    Except (AnalysisError α) Unit :=
  if comparison.isOrdered then (v.comparandKey comparison comparand).map fun _ => ()
  else v.checkComparand comparand

/-- Whether a cell stands in a relation to a literal with which it compares. -/
def admits (v : Variable) (comparison : Comparison) (comparand cell : Cell α) : Bool :=
  accepts (fun cell => v.compare cell comparison comparand) cell

/-- **No cell can make a comparison fail** once the check has passed. -/
theorem compare_eq_admits (h : v.checkLiteral comparison comparand = .ok ()) (cell : Cell α) :
    v.compare cell comparison comparand = .ok (v.admits comparison comparand cell) := by
  have hok : ∃ answer, v.compare cell comparison comparand = .ok answer := by
    rw [checkLiteral] at h
    rw [compare]
    split at h
    · obtain ⟨threshold, hthreshold, -⟩ := map_eq_ok_iff.1 h
      rw [if_pos ‹_›, hthreshold, ok_bind]
      exact ⟨_, rfl⟩
    · rw [if_neg ‹_›]
      exact ⟨_, rfl⟩
  obtain ⟨answer, hanswer⟩ := hok
  have hadmits : v.admits comparison comparand cell = answer := accepts_of_eq_ok hanswer
  rw [hanswer, hadmits]

/-- A comparison for equality needs no check. -/
theorem admits_of_not_isOrdered (h : ¬ comparison.isOrdered = true) (cell : Cell α) :
    v.admits comparison comparand cell = (cell.agrees comparand == (comparison == .eq)) := by
  rw [admits]
  refine accepts_of_eq_ok ?_
  rw [compare, if_neg h]

end Variable

/-! ### Filters as checks -/

/-- The check of a filter for equality: a literal has to fit the variable on the left. -/
def checkEquality (v : Option Variable) (literal : Option (Cell α)) :
    Except (AnalysisError α) Unit :=
  match v, literal with
  | some v, some comparand => v.checkComparand comparand
  | _, _ => .ok ()

/-- The check of an ordered filter: there is a variable on the left, and it compares with the
literal. -/
def checkOrder (text : String) (comparison : Comparison) (v : Option Variable)
    (comparand : Cell α) : Except (AnalysisError α) Unit :=
  match v with
  | none => .error (.malformedRelation text .literalCompared)
  | some v => (v.comparandKey comparison comparand).map fun _ => ()

/-- **A filter for equality** is its check and a selection that cannot fail. -/
theorem filterEqual_eq_map_check (keepEqual : Bool) (left right : Binding α)
    (literal : Option (Cell α)) :
    filterEqual keepEqual left right literal = (checkEquality left.var literal).map fun _ =>
      left.keep fun e => right.hasMatch e == keepEqual := by
  have hretain : (left.retain fun row cell =>
      return (right.cellAt row).any cell.agrees == keepEqual) =
        (.ok (left.keep fun e => right.hasMatch e == keepEqual) :
          Except (AnalysisError α) (Binding α)) :=
    Binding.retain_eq_keep fun _ _ => rfl
  rw [filterEqual]
  dsimp only
  cases hv : left.var with
  | none => exact hretain
  | some v =>
      cases literal with
      | none => exact hretain
      | some comparand =>
          simp only [checkEquality]
          cases v.checkComparand comparand with
          | error err => rfl
          | ok _ => exact hretain

/-- **An ordered filter** is its check and a selection that cannot fail. -/
theorem filterOrdered_eq_map_check {comparison : Comparison} (hordered : comparison.isOrdered = true)
    (text : String) (left : Binding α) (comparand : Cell α) :
    filterOrdered text comparison left comparand =
      (checkOrder text comparison left.var comparand).map fun _ =>
        left.keep fun e => left.var.any (·.admits comparison comparand e.2) := by
  rw [filterOrdered]
  cases hv : left.var with
  | none => rfl
  | some v =>
      dsimp only [checkOrder, Option.any_some]
      cases hkey : v.comparandKey comparison comparand with
      | error err => rfl
      | ok threshold =>
          have hcheck : v.checkLiteral comparison comparand = .ok () := by
            rw [Variable.checkLiteral, if_pos hordered, hkey]
            rfl
          rw [ok_bind, Binding.retain_eq_keep fun e _ => Variable.compare_eq_admits hcheck e.2]
          rfl

/-! ### Evaluating filters -/

section Evaluation

variable [Tails α] [NumberText α] {d : Dataset α} {ctx : Context α} {comparison : Comparison}
  {left right : Expression α}

/-- A filter for equality evaluates both operands, checks a literal and compares cell by cell. -/
theorem evaluate_filter_equality (h : ¬ comparison.isOrdered = true) :
    evaluate d ctx (.filter comparison left right) = (do
      let l ← evaluateBinding d ctx left
      let r ← evaluateBinding d ctx right
      checkEquality l.var right.literal?
      return .data (l.keep fun e => r.hasMatch e == (comparison == .eq))) := by
  rw [evaluate, if_neg h, evaluateBinding, evaluateBinding]
  simp only [filterEqual_eq_map_check, bind_assoc]
  refine bind_congr fun x => bind_congr fun l => bind_congr fun y => bind_congr fun r => ?_
  cases checkEquality l.var right.literal? <;> rfl

/-- An ordered filter by a literal evaluates the other operand, checks the literal and compares cell
by cell. -/
theorem evaluate_filter_ordered (h : comparison.isOrdered = true) {comparand : Cell α}
    (hright : right.literal? = some comparand) :
    evaluate d ctx (.filter comparison left right) = (do
      let l ← evaluateBinding d ctx left
      checkOrder (Expression.filter comparison left right).toText comparison l.var comparand
      return .data (l.keep fun e => l.var.any (·.admits comparison comparand e.2))) := by
  rw [evaluate, if_pos h, evaluateBinding, hright]
  simp only [filterOrdered_eq_map_check h, bind_assoc]
  refine bind_congr fun x => bind_congr fun l => ?_
  cases checkOrder _ comparison l.var comparand <;> rfl

/-- An ordered filter by anything but a literal fails. -/
theorem evaluate_filter_ordered_none (h : comparison.isOrdered = true)
    (hright : right.literal? = none) :
    evaluate d ctx (.filter comparison left right) = .error
      (.malformedRelation (Expression.filter comparison left right).toText
        .comparandNotLiteral) := by
  rw [evaluate, if_pos h, hright]
  rfl

/-! ### Failures without data -/

namespace Expression

/-- The expressions that select cells: columns, literals and filters of these. -/
inductive Selects : Expression α → Prop
  | column (name : String) : Selects (.column name)
  | literal (value : Cell α) : Selects (.literal value)
  | filter (comparison : Comparison) {left right : Expression α} (hleft : Selects left)
      (hright : Selects right) : Selects (.filter comparison left right)

/-- The variable of the cells that an expression selects, or the failure to select any, **computed
from the variables of the columns alone**. -/
def selected (find : String → Except (AnalysisError α) Variable) :
    Expression α → Except (AnalysisError α) (Option Variable)
  | column name => (find name).map some
  | literal _ => .ok none
  | filter comparison left right =>
    if comparison.isOrdered then do
      let text := (Expression.filter comparison left right).toText
      let some comparand := right.literal?
        | throw (.malformedRelation text .comparandNotLiteral)
      let v ← left.selected find
      checkOrder text comparison v comparand
      return v
    else do
      let v ← left.selected find
      let _ ← right.selected find
      checkEquality v right.literal?
      return v
  | e => .error (.malformedRelation e.toText .operandWithoutData)

variable {e : Expression α}

/-- An expression that selects evaluates to a binding or fails. -/
theorem Selects.evaluate_eq (h : e.Selects) :
    evaluate d ctx e = (evaluateBinding d ctx e).map .data := by
  rw [evaluateBinding]
  cases h with
  | column name =>
      rw [evaluate]
      cases Binding.ofColumn d name <;> rfl
  | literal value =>
      rw [evaluate]
      rfl
  | @filter comparison left right _ _ =>
      by_cases hordered : comparison.isOrdered = true
      · cases hright : right.literal? with
        | none =>
            rw [evaluate_filter_ordered_none hordered hright]
            rfl
        | some comparand =>
            rw [evaluate_filter_ordered hordered hright]
            cases evaluateBinding d ctx left with
            | error err => rfl
            | ok l =>
                rw [ok_bind]
                cases checkOrder _ comparison l.var comparand <;> rfl
      · rw [evaluate_filter_equality hordered]
        cases evaluateBinding d ctx left with
        | error err => rfl
        | ok l =>
            cases evaluateBinding d ctx right with
            | error err => rfl
            | ok r =>
                rw [ok_bind, ok_bind]
                cases checkEquality l.var right.literal? <;> rfl

/-- **A selection fails exactly as the computation without data does.** -/
theorem Selects.selected_eq (h : e.Selects) :
    e.selected d.findVariable = (evaluateBinding d ctx e).map (·.var) := by
  induction h with
  | column name =>
      rw [selected, evaluateBinding, evaluate]
      cases hc : d.columns.get? name with
      | none =>
          rw [Binding.ofColumn, Dataset.select, Dataset.findVariable, Dataset.column, hc]
          rfl
      | some c =>
          rw [Binding.ofColumn_eq_ok hc, Dataset.findVariable, Dataset.column_eq_ok_iff.2 hc]
          rfl
  | literal value =>
      rw [selected, evaluateBinding, evaluate]
      rfl
  | @filter comparison left right _ _ ihleft ihright =>
      rw [selected, evaluateBinding, ihleft, ihright]
      split
      · cases hright : right.literal? with
        | none =>
            rw [evaluate_filter_ordered_none ‹_› hright]
            rfl
        | some comparand =>
            rw [evaluate_filter_ordered ‹_› hright]
            cases evaluateBinding d ctx left with
            | error err => rfl
            | ok l =>
                simp only [Except.map, ok_bind]
                cases checkOrder _ comparison l.var comparand <;> rfl
      · rw [evaluate_filter_equality ‹_›]
        cases evaluateBinding d ctx left with
        | error err => rfl
        | ok l =>
            cases evaluateBinding d ctx right with
            | error err => rfl
            | ok r =>
                simp only [Except.map, ok_bind]
                cases checkEquality l.var right.literal? <;> rfl

end Expression

/-! ### Two datasets -/

/-- Two datasets have the same columns, with the same variables; their cells, rows and keys may
differ. -/
def Dataset.SameVariables (d d' : Dataset α) : Prop :=
  ∀ name, (d.columns.get? name).map (·.var) = (d'.columns.get? name).map (·.var)

omit [Numeric α] [Tails α] [NumberText α] in
theorem Dataset.SameVariables.findVariable_eq {d' : Dataset α} (h : d.SameVariables d') :
    d.findVariable = d'.findVariable := by
  funext name
  have hname := h name
  rw [findVariable, findVariable, column, column]
  cases hc : d.columns.get? name with
  | none =>
      rw [hc] at hname
      rw [Option.map_eq_none_iff.1 hname.symm]
  | some c =>
      rw [hc] at hname
      obtain ⟨c', hc', hvar⟩ := Option.map_eq_some_iff.1 hname.symm
      rw [hc']
      exact congrArg Except.ok hvar.symm

/-- **Datasets with the same variables fail alike.**  A selection, however its filters are nested,
either succeeds on both of two datasets with the same columns and variables, or it fails on both in
the same way: no cell, no number of rows and no key decides which. -/
theorem selections_fail_alike {d d' : Dataset α} {e : Expression α} (h : e.Selects)
    (hvariables : d.SameVariables d') (ctx ctx' : Context α) :
    (∃ b b', evaluate d ctx e = .ok (.data b) ∧ evaluate d' ctx' e = .ok (.data b')) ∨
      ∃ err, evaluate d ctx e = .error err ∧ evaluate d' ctx' e = .error err := by
  have hselected : (evaluateBinding d ctx e).map (·.var) =
      (evaluateBinding d' ctx' e).map (·.var) := by
    rw [← h.selected_eq, ← h.selected_eq, hvariables.findVariable_eq]
  rw [h.evaluate_eq, h.evaluate_eq]
  cases hb : evaluateBinding d ctx e with
  | ok b =>
      cases hb' : evaluateBinding d' ctx' e with
      | ok b' => exact .inl ⟨b, b', rfl, rfl⟩
      | error err =>
          rw [hb, hb'] at hselected
          cases hselected
  | error err =>
      cases hb' : evaluateBinding d' ctx' e with
      | ok b' =>
          rw [hb, hb'] at hselected
          cases hselected
      | error err' =>
          rw [hb, hb'] at hselected
          obtain rfl : err = err' := Except.error.inj hselected
          exact .inr ⟨err, rfl, rfl⟩

end Evaluation

/-- The table of the grades before anybody was graded. -/
def ungraded : Dataset Float :=
  ⟨⟨[("grade", ⟨⟨"grade", .ordinal, some ["low", "fair", "high"]⟩, []⟩)]⟩, 0, none⟩

/-- A grade is compared with no label of its own, whether there are grades or none. -/
theorem grades_fail_alike :
    let ctx : Context Float := ⟨.standard, none, ⟨∅, ∅⟩⟩
    let e : Expression Float :=
      .filter .eq (.filter .lt (.column "grade") (.literal (.text "high"))) (.literal (.text "poor"))
    e.Selects ∧ grades.SameVariables ungraded ∧
      evaluate grades ctx e = .error (.unknownCategory "grade" "poor") ∧
      ((∃ b b', evaluate grades ctx e = .ok (.data b) ∧ evaluate ungraded ctx e = .ok (.data b')) ∨
        ∃ err, evaluate grades ctx e = .error err ∧ evaluate ungraded ctx e = .error err) := by
  intro ctx e
  have hselects : e.Selects := .filter .eq (.filter .lt (.column _) (.literal _)) (.literal _)
  have hvariables : grades.SameVariables ungraded := by
    intro name
    simp only [grades, ungraded, NameMap.get?, NameMap.find]
    split <;> rfl
  exact ⟨hselects, hvariables, rfl, selections_fail_alike hselects hvariables ctx ctx⟩

end StudyAnalysis
