/-
**Which cells a selection takes.**

Selections are computed by numbering the cells of a column and filtering the numbered cells.  This
module says what comes out in terms of rows alone: the cells of a column at a list of rows.

Main definitions:

* `StudyAnalysis.Column.entriesAt` — the cells of a column at some rows.

Main results:

* `StudyAnalysis.Column.mem_entriesAt`, `StudyAnalysis.Column.eq_entriesAt`,
  `StudyAnalysis.Column.filter_entriesAt` — what the cells at some rows are, and that selecting among
  them is selecting rows;
* `StudyAnalysis.Dataset.select_eq_ok` — **a selection takes the cells at the rows that satisfy its
  conditions**;
* `StudyAnalysis.Dataset.select_nil`, `StudyAnalysis.Dataset.select_eq_text` — the two selections
  that analyses make.
-/

import Mathlib.Data.List.Basic
import StudyAnalysis.Data.Dataset
import StudyAnalysis.Proofs.Fallible

set_option autoImplicit false
set_option relaxedAutoImplicit false

namespace StudyAnalysis

open Fallible

variable {α : Type}

/-! ### Cells at rows -/

namespace Column

/-- The cells of a column at some rows, each with its row; a row without a cell is left out. -/
def entriesAt (c : Column α) (rows : List Nat) : Series α :=
  rows.filterMap fun row => c.cells[row]?.map (row, ·)

variable {c : Column α} {rows : List Nat}

theorem mem_entriesAt {row : Nat} {cell : Cell α} :
    (row, cell) ∈ c.entriesAt rows ↔ row ∈ rows ∧ c.cells[row]? = some cell := by
  simp only [entriesAt, List.mem_filterMap, Option.map_eq_some_iff, Prod.mk.injEq]
  constructor
  · rintro ⟨_, hrow, _, hcell, rfl, rfl⟩
    exact ⟨hrow, hcell⟩
  · rintro ⟨hrow, hcell⟩
    exact ⟨row, hrow, cell, hcell, rfl, rfl⟩

/-- Selecting among cells by their rows is selecting rows. -/
theorem filter_entriesAt (keep : Nat → Bool) :
    ((c.entriesAt rows).filter fun e => keep e.1) = c.entriesAt (rows.filter keep) := by
  induction rows with
  | nil => rfl
  | cons row rest ih =>
      rw [entriesAt] at ih ⊢
      rw [List.filterMap_cons]
      cases hcell : c.cells[row]? with
      | none => by_cases hkeep : keep row = true <;> simp [entriesAt, hcell, hkeep, ih]
      | some cell => by_cases hkeep : keep row = true <;> simp [entriesAt, hcell, hkeep, ih]

theorem map_fst_entriesAt_sublist : ((c.entriesAt rows).map (·.1)).Sublist rows := by
  induction rows with
  | nil => exact List.Sublist.slnil
  | cons row rest ih =>
      cases hcell : c.cells[row]? with
      | none => simpa [entriesAt, hcell] using ih.cons row
      | some cell => simpa [entriesAt, hcell] using ih

theorem map_fst_entriesAt (h : ∀ row ∈ rows, row < c.cells.length) :
    (c.entriesAt rows).map (·.1) = rows := by
  induction rows with
  | nil => rfl
  | cons row rest ih =>
      have hrow : row < c.cells.length := h row List.mem_cons_self
      have hrest := ih fun row' hrow' => h row' (List.mem_cons_of_mem row hrow')
      rw [entriesAt] at hrest ⊢
      rw [List.filterMap_cons_some (by rw [List.getElem?_eq_getElem hrow]; rfl), List.map_cons,
        hrest]

/-- Cells of a column with their rows are the cells at these rows. -/
theorem eq_entriesAt {entries : Series α} (h : ∀ e ∈ entries, c.cells[e.1]? = some e.2) :
    entries = c.entriesAt (entries.map (·.1)) := by
  rw [entriesAt, List.filterMap_map]
  refine Eq.symm ?_
  calc entries.filterMap ((fun row => c.cells[row]?.map (row, ·)) ∘ (·.1))
      = entries.filterMap some := by
        refine List.filterMap_congr fun e he => ?_
        rw [Function.comp_apply, h e he]
        rfl
    _ = entries := List.filterMap_some

/-- Numbering the first cells of a column gives its cells at the first rows. -/
theorem map_zipIdx_take (c : Column α) (n : Nat) :
    (c.cells.take n).zipIdx.map (fun e => (e.2, e.1)) = c.entriesAt (List.range n) := by
  induction n with
  | zero => simp [entriesAt]
  | succ n ih =>
      rw [List.take_add_one, List.zipIdx_append, List.map_append, ih, List.range_succ, entriesAt,
        entriesAt, List.filterMap_append]
      congr 1
      cases hcell : c.cells[n]? with
      | none => simp [hcell]
      | some cell =>
          have hn : n < c.cells.length := (List.getElem?_eq_some_iff.1 hcell).1
          simp [hcell, Nat.min_eq_left (Nat.le_of_lt hn)]

end Column

/-! ### Selections -/

namespace Dataset

variable {d : Dataset α}

theorem column_eq_ok_iff {name : String} {c : Column α} :
    d.column name = .ok c ↔ d.columns.get? name = some c := by
  rw [column]
  cases d.columns.get? name <;> simp

variable [Numeric α]

/-- **A selection** takes the cells of a column at the rows that satisfy all conditions. -/
theorem select_eq_ok {name : String} {c : Column α} {conditions : List (Condition α)}
    (filters : List (Column α × Condition α)) (keep : Nat → Bool)
    (hc : d.columns.get? name = some c)
    (hfilters : List.Forall₂ (fun p f => d.columns.get? p.column = some f.1 ∧ f.2 = p)
      conditions filters)
    (hkeep : ∀ row, satisfies row filters = .ok (keep row)) :
    d.select name conditions = .ok (c.entriesAt ((List.range d.rowCount).filter keep)) := by
  have hmapM : (conditions.mapM fun p => do return (← d.column p.column, p)) =
      (.ok filters : Except (AnalysisError α) _) := by
    rw [mapM_eq_ok_iff]
    refine hfilters.imp fun p f hf => ?_
    rw [column_eq_ok_iff.2 hf.1, ok_bind, ← hf.2]
    rfl
  have hfilterM : ((c.cells.take d.rowCount).zipIdx.filterM fun e => satisfies e.2 filters) =
      (.ok ((c.cells.take d.rowCount).zipIdx.filter fun e => keep e.2) :
        Except (AnalysisError α) _) :=
    filterM_of_eq_ok (fun e : Cell α × Nat => keep e.2) fun e _ => hkeep e.2
  rw [select, column_eq_ok_iff.2 hc, ok_bind, hmapM, ok_bind, hfilterM, ok_bind, pure_eq_ok,
    ← Column.filter_entriesAt, ← Column.map_zipIdx_take, List.filter_map]
  rfl

/-- Without conditions all cells of a column are selected. -/
theorem select_nil {name : String} {c : Column α} (hc : d.columns.get? name = some c) :
    d.select name [] = .ok (c.entriesAt (List.range d.rowCount)) := by
  rw [select_eq_ok [] (fun _ => true) hc .nil fun _ => rfl, List.filter_true]

/-- A condition of equality selects by the cells of its column. -/
theorem select_eq_text {name factor label : String} {c f : Column α}
    (hc : d.columns.get? name = some c) (hf : d.columns.get? factor = some f) :
    d.select name [⟨factor, .eq, .text label⟩] =
      .ok (c.entriesAt ((List.range d.rowCount).filter fun row =>
        f.cells[row]?.any (·.agrees (.text label)))) := by
  refine select_eq_ok [(f, ⟨factor, .eq, .text label⟩)] _ hc (.cons ⟨hf, rfl⟩ .nil) fun row => ?_
  cases hcell : f.cells[row]? with
  | none => simp [satisfies, hcell]
  | some cell =>
      cases hagrees : cell.agrees (.text label) <;>
        simp [satisfies, hcell, Variable.compare, Comparison.isOrdered, hagrees]

end Dataset

end StudyAnalysis
