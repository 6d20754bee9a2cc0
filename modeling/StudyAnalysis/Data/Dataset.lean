/-
**Datasets.**

A dataset is a table of columns of one length, each with the variable that it holds.  A dataset is
only made from columns whose cells fit their variables.  A column may be named as the key that tells
which participant a row belongs to.

Main definitions:

* `StudyAnalysis.Dataset` — the columns, the number of rows and the key;
* `StudyAnalysis.Dataset.ofColumns` — the dataset of a list of columns;
* `StudyAnalysis.Dataset.ofRecords` — the dataset of a list of documents, one for every row;
* `StudyAnalysis.Dataset.select` — the cells of a column in the rows that satisfy some conditions.
-/

import StudyAnalysis.Data.NameMap
import StudyAnalysis.Data.Variable
import StudyAnalysis.Document.JsonText
import StudyAnalysis.Number.Word

set_option autoImplicit false
set_option relaxedAutoImplicit false

namespace StudyAnalysis

/-- A variable with its cells, one for every row. -/
structure Column (α : Type) where
  var : Variable
  cells : List (Cell α)

/-- A table of columns. -/
structure Dataset (α : Type) where
  columns : NameMap (Column α)
  rowCount : Nat
  /-- The name of the column that identifies participants. -/
  key : Option String

/-- A condition on the rows of a dataset. -/
structure Condition (α : Type) where
  column : String
  comparison : Comparison
  value : Cell α

/-- Some cells of a column, each with its row. -/
abbrev Series (α : Type) := List (Nat × Cell α)

namespace Dataset

variable {α : Type} [Numeric α]

/-! ### Making datasets -/

/-- Checks that a column has the given length and cells that fit its variable. -/
def checkColumn (rowCount : Nat) (column : Column α) : Except (AnalysisError α) Unit := do
  let v := column.var
  if v.scale.isCategorical && v.labels.isEmpty then
    throw (.invalidConfig (.noCategories v.name v.scale))
  if column.cells.length ≠ rowCount then
    throw (.typeMismatch v.name (.rowCount rowCount column.cells.length))
  column.cells.forM v.checkCell

/-- The dataset of a list of columns, of which the first gives the number of rows.  Of two columns
of one name the later one counts. -/
def ofColumns (columns : List (Column α)) : Except (AnalysisError α) (Dataset α) := do
  let rowCount := (columns.head?.map fun c => c.cells.length).getD 0
  columns.forM (checkColumn rowCount)
  return ⟨.ofList (columns.map fun c => (c.var.name, c)), rowCount, none⟩

/-- Whether there is a column of a name. -/
def contains (d : Dataset α) (name : String) : Bool :=
  d.columns.contains name

/-- The dataset with a column named as its key. -/
def withKey (d : Dataset α) (name : String) : Except (AnalysisError α) (Dataset α) :=
  if d.contains name then .ok { d with key := some name } else .error (.unknownVariable name)

/-- The cell that a field of a record holds.  Whole numbers outside of 64 bits count as fractional
ones. -/
def cellOfField [NumberText α] (name : String) (row : Nat) (field : Option (Value α)) :
    Except (AnalysisError α) (Cell α) :=
  match field with
  | none | some .null => .error (.missingValue name row)
  | some (.int n) => .ok (if Word.fitsSigned n then .int n else .real (Numeric.ofInt n))
  | some (.real x) => .ok (.real x)
  | some (.text s) => .ok (.text s)
  | some document => .error (.typeMismatch name (.notCell (Json.compact document)))

/-- The cells of one field of all records. -/
def cellsOfField [NumberText α] (records : List (Value α)) (name : String) :
    Except (AnalysisError α) (List (Cell α)) :=
  records.zipIdx.mapM fun (record, row) => cellOfField name row (record.field? name)

/-- The column that identifies participants by the text of a field. -/
def keyColumn (name : String) (ids : List String) : Column α :=
  { var := ⟨name, .nominal, some ids.eraseDups⟩
    cells := ids.map .text }

/-- The dataset of a list of documents, one for every row, with the columns of the given variables.
If the key is none of them, its column is added. -/
def ofRecords [NumberText α] (vars : List Variable) (records : List (Value α))
    (key : Option String) : Except (AnalysisError α) (Dataset α) := do
  let columns ← vars.mapM fun v => return ⟨v, ← cellsOfField records v.name⟩
  let d ← ofColumns columns
  match key with
  | none => return d
  | some name =>
    if d.contains name then
      return { d with key := some name }
    else
      let ids := (← cellsOfField records name).map Cell.toText
      return { d with columns := d.columns.insert name (keyColumn name ids), key := some name }

/-! ### Reading datasets -/

/-- The column of a name. -/
def column (d : Dataset α) (name : String) : Except (AnalysisError α) (Column α) :=
  match d.columns.get? name with
  | some c => .ok c
  | none => .error (.unknownVariable name)

/-- The variable of a name. -/
def findVariable (d : Dataset α) (name : String) : Except (AnalysisError α) Variable :=
  (d.column name).map (·.var)

/-- The cell that identifies the participant of a row. -/
def keyValue (d : Dataset α) (row : Nat) : Option (Cell α) := do
  let column ← d.columns.get? (← d.key)
  column.cells[row]?

/-- Whether a row satisfies all conditions; a condition after the first that fails is not looked
at. -/
def satisfies (row : Nat) : List (Column α × Condition α) → Except (AnalysisError α) Bool
  | [] => .ok true
  | (column, condition) :: rest =>
    match column.cells[row]? with
    | none => .ok false
    | some cell => do
      if ← column.var.compare cell condition.comparison condition.value then
        satisfies row rest
      else
        return false

/-- The cells of a column in the rows that satisfy all conditions.  A dataset without variables has
no rows, even if its key has cells. -/
def select (d : Dataset α) (name : String) (conditions : List (Condition α)) :
    Except (AnalysisError α) (Series α) := do
  let column ← d.column name
  let filters ← conditions.mapM fun c => return (← d.column c.column, c)
  let kept ← (column.cells.take d.rowCount).zipIdx.filterM fun (_, row) => satisfies row filters
  return kept.map fun (cell, row) => (row, cell)

end Dataset

end StudyAnalysis
