/-
**Cells of a data table.**

Main definitions:

* `StudyAnalysis.Cell` — a whole number, a fractional number or a text;
* `StudyAnalysis.Cell.number?` — the number in a cell;
* `StudyAnalysis.Cell.agrees` — whether two cells are equal.
-/

import StudyAnalysis.Number.Numeric
import StudyAnalysis.Number.Text

set_option autoImplicit false
set_option relaxedAutoImplicit false

namespace StudyAnalysis

/-- A cell of a data table. -/
inductive Cell (α : Type)
  | int (n : Int)
  | real (x : α)
  | text (s : String)

namespace Cell

variable {α : Type}

/-- The number in a cell; a text holds none. -/
def number? [Numeric α] : Cell α → Option α
  | int n => some (Numeric.ofInt n)
  | real x => some x
  | text _ => none

/-- The text in a cell. -/
def text? : Cell α → Option String
  | text s => some s
  | _ => none

/-- Whether two cells are equal: texts by their characters, numbers by their values. -/
def agrees [Numeric α] : Cell α → Cell α → Bool
  | text s, text t => s == t
  | a, b =>
    match a.number?, b.number? with
    | some x, some y => x == y
    | _, _ => false

/-- The content of a cell. -/
def toText [NumberText α] : Cell α → String
  | int n => toString n
  | real x => NumberText.shortest x
  | text s => s

/-- The content of a cell with its kind. -/
def describe [NumberText α] : Cell α → String
  | int n => "integer " ++ toString n
  | real x => "float " ++ NumberText.shortest x
  | text s => "string \"" ++ s ++ "\""

end Cell

end StudyAnalysis
