/-
**Selections of cells.**

An operand of an expression is bound to some cells of one column, each with its row, or to one value
repeated for every row.  Filters only narrow a binding.

Main definitions:

* `StudyAnalysis.Binding` — the cells with their rows, and the variable that they belong to;
* `StudyAnalysis.Binding.ofColumn`, `StudyAnalysis.Binding.ofLiteral` — the bindings that
  expressions start from;
* `StudyAnalysis.Binding.cellAt` — reading a binding by binary search;
* `StudyAnalysis.Binding.retain`, `StudyAnalysis.Binding.restrict` — narrowing a binding.
-/

import StudyAnalysis.Data.Dataset

set_option autoImplicit false
set_option relaxedAutoImplicit false

namespace StudyAnalysis

/-- A selection of cells. -/
structure Binding (α : Type) where
  /-- The cells with their rows, in ascending order of the rows. -/
  entries : Series α
  /-- The variable of the cells; a repeated literal has none. -/
  var : Option Variable

namespace Binding

variable {α : Type}

/-- All cells of a column. -/
def ofColumn [Numeric α] (d : Dataset α) (name : String) :
    Except (AnalysisError α) (Binding α) := do
  return ⟨← d.select name [], some (← d.findVariable name)⟩

/-- One value for every row of a dataset. -/
def ofLiteral (d : Dataset α) (value : Cell α) : Binding α :=
  ⟨(List.range d.rowCount).map fun row => (row, value), none⟩

/-- The rows of the binding. -/
def rows (b : Binding α) : List Nat :=
  b.entries.map (·.1)

/-- The cells of the binding. -/
def values (b : Binding α) : List (Cell α) :=
  b.entries.map (·.2)

/-- Whether the binding repeats a literal. -/
def isLiteral (b : Binding α) : Bool :=
  b.var.isNone

/-- The name of the variable. -/
def name? (b : Binding α) : Option String :=
  b.var.map (·.name)

/-- The cell at a row, by binary search among entries in ascending order of their rows: the entry in
the middle tells which half may hold the row.  Closed searches reduce. -/
@[semireducible] def search (row : Nat) (entries : Series α) : Option (Cell α) :=
  if h : entries.length < 2 then
    (entries.head?.filter fun e => e.1 == row).map (·.2)
  else
    have hhalf : entries.length / 2 < entries.length := by omega
    if row < entries[entries.length / 2].1 then search row (entries.take (entries.length / 2))
    else search row (entries.drop (entries.length / 2))
termination_by entries.length
decreasing_by
  · rw [List.length_take]; omega
  · rw [List.length_drop]; omega

/-- The cell at a row, if the row is bound. -/
def cellAt (b : Binding α) (row : Nat) : Option (Cell α) :=
  search row b.entries

/-- The binding without the rows that are not in a list. -/
def restrict (b : Binding α) (keep : List Nat) : Binding α :=
  { b with entries := b.entries.filter fun e => keep.contains e.1 }

/-- The binding without the cells that a test rejects; a test that fails stops the selection. -/
def retain {ε : Type} (b : Binding α) (keep : Nat → Cell α → Except ε Bool) :
    Except ε (Binding α) := do
  return { b with entries := ← b.entries.filterM fun (row, cell) => keep row cell }

/-- The rows that all of some bindings have, in ascending order. -/
def commonRows : List (Binding α) → List Nat
  | [] => []
  | b :: rest => b.rows.filter fun row => rest.all fun other => other.rows.contains row

end Binding

end StudyAnalysis
