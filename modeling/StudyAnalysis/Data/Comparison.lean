/-
**Comparisons.**

Main definitions:

* `StudyAnalysis.Comparison` — the six relations between two values;
* `StudyAnalysis.Comparison.holds` — whether a relation holds between values that compare in a given
  way.
-/

set_option autoImplicit false
set_option relaxedAutoImplicit false

namespace StudyAnalysis

/-- A relation between two values. -/
inductive Comparison
  | eq
  | ne
  | lt
  | le
  | gt
  | ge
  deriving DecidableEq

namespace Comparison

/-- The sign of the relation. -/
def symbol : Comparison → String
  | eq => "=="
  | ne => "!="
  | lt => "<"
  | le => "<="
  | gt => ">"
  | ge => ">="

/-- The relation that a sign stands for. -/
def ofSymbol? (word : String) : Option Comparison :=
  [eq, ne, lt, le, gt, ge].find? fun c => c.symbol == word

/-- Whether the relation needs an order. -/
def isOrdered : Comparison → Bool
  | eq | ne => false
  | lt | le | gt | ge => true

/-- Whether the relation holds between two values that compare in the given way. -/
def holds : Comparison → Ordering → Bool
  | eq, o => o == .eq
  | ne, o => o != .eq
  | lt, o => o == .lt
  | le, o => o != .gt
  | gt, o => o == .gt
  | ge, o => o != .lt

end Comparison

end StudyAnalysis
