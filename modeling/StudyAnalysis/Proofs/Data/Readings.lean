/-
**Reading the rows of a column.**

A column is read at some rows: by the numbers that order its cells, or by its labels.  This module
says when nothing is lost.  The rows of the labels that occur are all rows, but a row belongs to as
many of them as its label is declared times, since nothing keeps a variable from declaring a label
twice.

Main definitions:

* `StudyAnalysis.Column.keyAt`, `StudyAnalysis.Column.readings` — the numbers by which rows are
  ordered;
* `StudyAnalysis.Column.rowsWith`, `StudyAnalysis.Column.occurring` — the rows of a label, and the
  labels that have rows.

Main results:

* `StudyAnalysis.Column.map_fst_readings`, `StudyAnalysis.Column.map_snd_readings` — rows that can
  be read are all read, in their order;
* `StudyAnalysis.Column.rowsWith_perm_iff` — **the rows of the labels are all rows, each once,
  exactly if no label occurs that is declared twice**.
-/

import Mathlib.Data.List.Nodup
import StudyAnalysis.Hypothesis.Properties
import StudyAnalysis.Proofs.Data.Cells
import StudyAnalysis.Proofs.Data.CheckedCells

set_option autoImplicit false
set_option relaxedAutoImplicit false

namespace StudyAnalysis

open Fallible

variable {α : Type} [Numeric α]

/-- Only a text is equal to a text. -/
theorem Cell.agrees_text (cell : Cell α) (label : String) :
    cell.agrees (.text label) = (cell.text? == some label) := by
  cases cell with
  | int n => rfl
  | real x => rfl
  | text s => exact Bool.eq_iff_iff.2 (by simp [Cell.agrees, Cell.text?])

/-! ### Numbers at rows -/

namespace Column

/-- The number by which a row is ordered in a column. -/
def keyAt (c : Column α) (row : Nat) : Option α :=
  c.cells[row]?.bind c.var.orderKey

/-- Those of some rows at which a column has a label. -/
def rowsWith (c : Column α) (rows : List Nat) (label : String) : List Nat :=
  rows.filter fun row => c.cells[row]?.any (·.agrees (.text label))

/-- The declared labels that a column has at some rows, in their order. -/
def occurring (c : Column α) (rows : List Nat) : List String :=
  c.var.labels.filter fun label => !(c.rowsWith rows label).isEmpty

/-- The numbers by which some rows are ordered, each with its row. -/
def readings (c : Column α) (rows : List Nat) : RowValues α :=
  rows.filterMap fun row => (c.keyAt row).map (row, ·)

variable {c : Column α} {rows : List Nat}

theorem filterMap_entriesAt :
    (c.entriesAt rows).filterMap (fun e => (c.var.orderKey e.2).map (e.1, ·)) =
      c.readings rows := by
  rw [entriesAt, List.filterMap_filterMap, readings]
  refine List.filterMap_congr fun row _ => ?_
  rw [keyAt]
  cases c.cells[row]? <;> rfl

/-- A cell of a variable with an order can be read. -/
theorem isSome_keyAt (hscale : c.var.scale.isRankable = true)
    (hchecked : ∀ cell ∈ c.cells, c.var.checkCell cell = .ok ()) {row : Nat}
    (hrow : row < c.cells.length) : (c.keyAt row).isSome = true := by
  rw [keyAt, List.getElem?_eq_getElem hrow]
  exact Variable.isSome_orderKey_of_checkCell hscale (hchecked _ (List.getElem_mem hrow))

/-- If all rows can be read, none is lost. -/
theorem map_fst_readings (h : ∀ row ∈ rows, (c.keyAt row).isSome = true) :
    (c.readings rows).map (·.1) = rows := by
  induction rows with
  | nil => rfl
  | cons row rest ih =>
      obtain ⟨hrow, hrest⟩ := List.forall_mem_cons.1 h
      obtain ⟨x, hx⟩ := Option.isSome_iff_exists.1 hrow
      have htail := ih hrest
      rw [readings] at htail ⊢
      rw [List.filterMap_cons_some (by rw [hx]; rfl), List.map_cons, htail]

theorem map_snd_readings (h : ∀ row ∈ rows, (c.keyAt row).isSome = true) :
    ((c.readings rows).map (·.2)).map some = rows.map c.keyAt := by
  induction rows with
  | nil => rfl
  | cons row rest ih =>
      obtain ⟨hrow, hrest⟩ := List.forall_mem_cons.1 h
      obtain ⟨x, hx⟩ := Option.isSome_iff_exists.1 hrow
      have htail := ih hrest
      rw [readings] at htail ⊢
      rw [List.filterMap_cons_some (by rw [hx]; rfl), List.map_cons, List.map_cons, List.map_cons,
        htail, hx]

/-! ### The rows of the labels -/

theorem mem_rowsWith {label : String} {row : Nat} :
    row ∈ c.rowsWith rows label ↔
      row ∈ rows ∧ c.cells[row]?.any (·.agrees (.text label)) = true :=
  List.mem_filter

/-- A checked categorical column has exactly one label at each row. -/
theorem exists_label (hscale : c.var.scale.isCategorical = true)
    (hchecked : ∀ cell ∈ c.cells, c.var.checkCell cell = .ok ()) {row : Nat}
    (hrow : row < c.cells.length) :
    ∃ label ∈ c.var.labels,
      ∀ label', c.cells[row]?.any (·.agrees (.text label')) = true ↔ label' = label := by
  obtain ⟨label, hlabel, hcell⟩ :=
    Variable.exists_label_of_checkCell hscale (hchecked _ (List.getElem_mem hrow))
  refine ⟨label, hlabel, fun label' => ?_⟩
  rw [List.getElem?_eq_getElem hrow, hcell]
  show (label == label') = true ↔ _
  rw [beq_iff_eq, eq_comm]

theorem mem_occurring {label : String} :
    label ∈ c.occurring rows ↔ label ∈ c.var.labels ∧ ∃ row, row ∈ c.rowsWith rows label := by
  rw [occurring, List.mem_filter, Bool.not_eq_true', List.isEmpty_eq_false_iff_exists_mem]

/-- Every row has an occurring label. -/
theorem mem_flatten_rowsWith (hscale : c.var.scale.isCategorical = true)
    (hchecked : ∀ cell ∈ c.cells, c.var.checkCell cell = .ok ())
    (hrows : ∀ row ∈ rows, row < c.cells.length) {row : Nat} :
    row ∈ ((c.occurring rows).map (c.rowsWith rows)).flatten ↔ row ∈ rows := by
  simp only [List.mem_flatten, List.mem_map]
  constructor
  · rintro ⟨_, ⟨label, -, rfl⟩, hrow⟩
    exact (mem_rowsWith.1 hrow).1
  · intro hrow
    obtain ⟨label, hlabel, hholds⟩ := exists_label hscale hchecked (hrows row hrow)
    have hwith : row ∈ c.rowsWith rows label := mem_rowsWith.2 ⟨hrow, (hholds label).2 rfl⟩
    exact ⟨_, ⟨label, mem_occurring.2 ⟨hlabel, row, hwith⟩, rfl⟩, hwith⟩

/-- **The rows of the occurring labels are all rows, each once, exactly if no label occurs that is
declared twice.** -/
theorem rowsWith_perm_iff (hscale : c.var.scale.isCategorical = true)
    (hchecked : ∀ cell ∈ c.cells, c.var.checkCell cell = .ok ())
    (hrows : ∀ row ∈ rows, row < c.cells.length) (hnodup : rows.Nodup) :
    ((c.occurring rows).map (c.rowsWith rows)).flatten.Perm rows ↔ (c.occurring rows).Nodup := by
  have heach : ∀ label, (c.rowsWith rows label).Nodup := fun label => hnodup.filter _
  -- two labels share a row only if they are equal
  have hdisjoint : ∀ label ∈ c.occurring rows, ∀ label' ∈ c.occurring rows,
      List.Disjoint (c.rowsWith rows label) (c.rowsWith rows label') ↔ label ≠ label' := by
    intro label hlabel label' _
    constructor
    · rintro h rfl
      obtain ⟨-, row, hrow⟩ := mem_occurring.1 hlabel
      exact h hrow hrow
    · intro hne row hrow hrow'
      obtain ⟨hmem, hholds⟩ := mem_rowsWith.1 hrow
      obtain ⟨label'', -, hunique⟩ := exists_label hscale hchecked (hrows row hmem)
      have hholds' := (mem_rowsWith.1 hrow').2
      exact hne (((hunique label).1 hholds).trans ((hunique label').1 hholds').symm)
  have hflatten : ((c.occurring rows).map (c.rowsWith rows)).flatten.Nodup ↔
      (c.occurring rows).Nodup := by
    rw [List.nodup_flatten, List.pairwise_map, List.Nodup]
    refine (and_iff_right fun l hl => ?_).trans ?_
    · obtain ⟨label, -, rfl⟩ := List.mem_map.1 hl
      exact heach label
    · exact List.Pairwise.iff_of_mem fun hlabel hlabel' => hdisjoint _ hlabel _ hlabel'
  rw [← hflatten]
  constructor
  · exact fun h => h.nodup_iff.2 hnodup
  · exact fun h => (List.perm_ext_iff_of_nodup h hnodup).2 fun _ =>
      mem_flatten_rowsWith hscale hchecked hrows

end Column

end StudyAnalysis
