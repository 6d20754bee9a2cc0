/-
**Variables.**

A variable has a name, a scale and, if its values are categories, an ordered list of labels.  Its
scale decides what its cells may hold and how they compare.

Main definitions:

* `StudyAnalysis.Variable` — name, scale and categories;
* `StudyAnalysis.Variable.rankOf` — the place of a label among the categories;
* `StudyAnalysis.Variable.orderKey` — the number by which a cell is ordered;
* `StudyAnalysis.Variable.compare` — whether a cell stands in a relation to a literal;
* `StudyAnalysis.Variable.checkCell` — whether a cell may be in the column of the variable.
-/

import StudyAnalysis.Failure

set_option autoImplicit false
set_option relaxedAutoImplicit false

namespace StudyAnalysis

/-- A variable of a study. -/
structure Variable where
  name : String
  scale : Scale
  /-- The labels of a categorical variable, in their order. -/
  categories : Option (List String)
  deriving DecidableEq

namespace Variable

variable {α : Type} [Numeric α]

/-- The labels of the variable. -/
def labels (v : Variable) : List String :=
  v.categories.getD []

/-- The place of a label among the categories, counted from one. -/
def rankOf (v : Variable) (label : String) : Option Nat :=
  (v.labels.idxOf? label).map (· + 1)

/-- A label has a rank exactly if it is declared. -/
theorem isSome_rankOf (v : Variable) (label : String) :
    (v.rankOf label).isSome = true ↔ label ∈ v.labels := by
  rw [rankOf, Option.isSome_map]
  exact List.isSome_idxOf?

/-- The number by which a cell is ordered: the rank of a label or the number itself. -/
def orderKey (v : Variable) (cell : Cell α) : Option α :=
  match v.scale with
  | .nominal => none
  | .ordinal => (cell.text?.bind v.rankOf).map Numeric.ofNat
  | .interval | .ratio => cell.number?

/-- The number that a literal stands for in an ordered comparison with the variable. -/
def comparandKey (v : Variable) (comparison : Comparison) (comparand : Cell α) :
    Except (AnalysisError α) α :=
  match v.scale with
  | .nominal => .error (.unsupportedComparison v.name comparison v.scale)
  | .ordinal =>
    match comparand with
    | .text label =>
      match v.rankOf label with
      | some rank => .ok (Numeric.ofNat rank)
      | none => .error (.unknownCategory v.name label)
    | .int rank => .ok (Numeric.ofInt rank)
    | .real x => .error (.typeMismatch v.name (.notRank (.real x)))
  | .interval | .ratio =>
    match comparand.number? with
    | some x => .ok x
    | none => .error (.typeMismatch v.name (.notNumber v.scale comparand))

/-- Whether a cell stands in a relation to a literal.  A cell that does not compare with the literal
stands in no ordered relation to it. -/
def compare (v : Variable) (cell : Cell α) (comparison : Comparison) (comparand : Cell α) :
    Except (AnalysisError α) Bool :=
  if comparison.isOrdered then do
    let threshold ← v.comparandKey comparison comparand
    return ((v.orderKey cell).bind (Numeric.order? · threshold)).any comparison.holds
  else
    .ok (cell.agrees comparand == (comparison == .eq))

/-- Whether a literal may be tested for equality with the variable: a label of a categorical
variable, a number for any other. -/
def checkComparand (v : Variable) (comparand : Cell α) : Except (AnalysisError α) Unit :=
  match v.scale, comparand with
  | .nominal, .text label | .ordinal, .text label =>
    if (v.rankOf label).isSome then .ok () else .error (.unknownCategory v.name label)
  | .nominal, _ | .ordinal, _ => .error (.typeMismatch v.name (.notLabel v.scale comparand))
  | .interval, _ | .ratio, _ =>
    if comparand.number?.isSome then .ok ()
    else .error (.typeMismatch v.name (.notNumber v.scale comparand))

/-- Whether a cell may be in the column of the variable: a label of a categorical variable, a finite
number for any other. -/
def checkCell (v : Variable) (cell : Cell α) : Except (AnalysisError α) Unit :=
  match v.scale, cell with
  | .nominal, .text label | .ordinal, .text label =>
    if (v.rankOf label).isSome then .ok () else .error (.unknownCategory v.name label)
  | .nominal, _ | .ordinal, _ => .error (.typeMismatch v.name (.notLabel v.scale cell))
  | .interval, _ | .ratio, _ =>
    if cell.number?.any Numeric.isFinite then .ok ()
    else .error (.typeMismatch v.name (.notFinite v.scale cell))

end Variable

end StudyAnalysis
