/-
**Keeping some rows of a dataset.**

A dataset that keeps some of its rows numbers them anew, by their places among the kept ones.  This
module says what the kept rows are called and that there stands the same at a row as before.

Main definitions:

* `StudyAnalysis.Dataset.AscendingRows` — some rows of a dataset, in ascending order;
* `StudyAnalysis.Column.keepRows`, `StudyAnalysis.Dataset.keepRows` — **what is left of a column
  and of a dataset if only some rows are kept**;
* `StudyAnalysis.renumber` — a value with the new number of its row.

Main results:

* `StudyAnalysis.Column.getElem?_keepRows`, `StudyAnalysis.Dataset.keyValue_keepRows` — a kept row
  has the same cells and the same participant under its new number;
* `StudyAnalysis.Column.entriesAt_keepRows` — selecting among the kept rows is selecting before and
  numbering anew.
-/

import Mathlib.Data.List.Nodup
import Mathlib.Data.List.Sort
import StudyAnalysis.Proofs.Data.Cells
import StudyAnalysis.Proofs.Data.WellFormed

set_option autoImplicit false
set_option relaxedAutoImplicit false

namespace StudyAnalysis

variable {α β : Type} {kept rows : List Nat}

/-! ### Numbering rows anew -/

/-- A value with the new number of its row, which is the place of the row among the kept ones. -/
def renumber (kept : List Nat) (e : Nat × β) : Nat × β :=
  (kept.idxOf e.1, e.2)

/-- The new numbers count the kept rows. -/
theorem map_idxOf_eq_range (h : kept.Nodup) : kept.map kept.idxOf = List.range kept.length := by
  refine List.ext_getElem (by simp) fun i hi _ => ?_
  rw [List.getElem_map, List.getElem_range, h.idxOf_getElem]

/-- Among ascending rows, those that occur in a list of ascending rows are that list. -/
theorem filter_contains_eq (hrows : rows.Pairwise (· < ·)) (hkept : kept.Pairwise (· < ·))
    (hsubset : kept ⊆ rows) : rows.filter (fun row => kept.contains row) = kept := by
  refine (hrows.filter _).eq_of_mem_iff hkept fun row => ?_
  rw [List.mem_filter, List.contains_iff_mem]
  exact ⟨And.right, fun hrow => ⟨hsubset hrow, hrow⟩⟩

/-! ### Columns -/

namespace Column

/-- What is left of a column if only some rows are kept. -/
def keepRows (c : Column α) (kept : List Nat) : Column α :=
  { c with cells := kept.filterMap fun row => c.cells[row]? }

variable {c : Column α}

theorem cells_keepRows : (c.keepRows kept).cells = (c.entriesAt kept).map (·.2) := by
  rw [keepRows, entriesAt, List.map_filterMap]
  refine List.filterMap_congr fun row _ => ?_
  cases c.cells[row]? <;> rfl

theorem length_cells_keepRows (h : ∀ row ∈ kept, row < c.cells.length) :
    (c.keepRows kept).cells.length = kept.length := by
  calc (c.keepRows kept).cells.length
      = ((c.entriesAt kept).map (·.1)).length := by
        rw [cells_keepRows, List.length_map, List.length_map]
    _ = kept.length := by rw [map_fst_entriesAt h]

theorem getElem?_keepRows (h : ∀ row ∈ kept, row < c.cells.length) {row : Nat}
    (hrow : row ∈ kept) : (c.keepRows kept).cells[kept.idxOf row]? = c.cells[row]? := by
  have hplace : ((c.entriesAt kept).map (·.1))[kept.idxOf row]? = some row := by
    rw [map_fst_entriesAt h, List.getElem?_idxOf hrow]
  rw [List.getElem?_map, Option.map_eq_some_iff] at hplace
  obtain ⟨⟨_, cell⟩, hentry, rfl⟩ := hplace
  rw [cells_keepRows, List.getElem?_map, hentry,
    (mem_entriesAt.1 (List.mem_of_getElem? hentry)).2]
  rfl

/-- Selecting among the kept rows is selecting before and numbering anew. -/
theorem entriesAt_keepRows (h : ∀ row ∈ kept, row < c.cells.length) (hrows : rows ⊆ kept) :
    (c.keepRows kept).entriesAt (rows.map kept.idxOf) = (c.entriesAt rows).map (renumber kept) := by
  rw [entriesAt, entriesAt, List.filterMap_map, List.map_filterMap]
  refine List.filterMap_congr fun row hrow => ?_
  rw [Function.comp_apply, getElem?_keepRows h (hrows hrow)]
  cases c.cells[row]? <;> rfl

end Column

/-! ### Datasets -/

namespace Dataset

/-- Some rows of a dataset, in ascending order. -/
structure AscendingRows (d : Dataset α) (rows : List Nat) : Prop where
  pairwise : rows.Pairwise (· < ·)
  lt_rowCount : ∀ row ∈ rows, row < d.rowCount

/-- What is left of a dataset if only some rows are kept; variables and key stay. -/
def keepRows (d : Dataset α) (kept : List Nat) : Dataset α :=
  ⟨d.columns.map (·.keepRows kept), kept.length, d.key⟩

variable {d : Dataset α}

theorem AscendingRows.range : d.AscendingRows (List.range d.rowCount) :=
  ⟨List.pairwise_lt_range, fun _ hrow => List.mem_range.1 hrow⟩

theorem AscendingRows.nodup (h : d.AscendingRows rows) : rows.Nodup :=
  h.pairwise.imp Nat.ne_of_lt

/-- All columns of a well-formed dataset have a cell at every row. -/
theorem AscendingRows.lt_length (h : d.AscendingRows rows) (hd : d.WellFormed) {name : String}
    {c : Column α} (hc : d.columns.get? name = some c) : ∀ row ∈ rows, row < c.cells.length :=
  fun row hrow => Nat.lt_of_lt_of_le (h.lt_rowCount row hrow) (hd.rowCount_le hc)

theorem get?_keepRows (name : String) :
    (d.keepRows kept).columns.get? name = (d.columns.get? name).map (·.keepRows kept) :=
  NameMap.get?_map _ _ _

theorem get?_keepRows_of_eq_some {name : String} {c : Column α}
    (hc : d.columns.get? name = some c) :
    (d.keepRows kept).columns.get? name = some (c.keepRows kept) := by
  rw [get?_keepRows, hc]
  rfl

theorem WellFormed.keepRows (hd : d.WellFormed) (hkept : d.AscendingRows kept) :
    (d.keepRows kept).WellFormed := by
  refine ⟨fun hget => ?_, fun hget => ?_⟩
  all_goals
    rw [get?_keepRows, Option.map_eq_some_iff] at hget
    obtain ⟨c, hc, rfl⟩ := hget
  · show c.var.name = _
    exact hd.name_eq hc
  · exact Nat.le_of_eq (Column.length_cells_keepRows (hkept.lt_length hd hc)).symm

/-- The new numbers of the kept rows are rows of what is left. -/
theorem AscendingRows.keepRows (hkept : d.AscendingRows kept) :
    (d.keepRows kept).AscendingRows (kept.map kept.idxOf) := by
  rw [map_idxOf_eq_range hkept.nodup]
  exact .range

/-- A kept row belongs to the same participant under its new number. -/
theorem keyValue_keepRows (hd : d.WellFormed) (hkept : d.AscendingRows kept) {row : Nat}
    (hrow : row ∈ kept) : (d.keepRows kept).keyValue (kept.idxOf row) = d.keyValue row := by
  rw [keyValue, keyValue, Dataset.keepRows]
  cases d.key with
  | none => rfl
  | some name =>
      rw [Option.bind_eq_bind, Option.bind_eq_bind, Option.bind_some, Option.bind_some,
        NameMap.get?_map]
      -- without a column of the key nobody is identified, before and after
      cases hc : d.columns.get? name with
      | none => rfl
      | some c => exact Column.getElem?_keepRows (hkept.lt_length hd hc) hrow

end Dataset

end StudyAnalysis
