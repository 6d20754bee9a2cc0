/-
**Samples that are ready for a test.**

Main definitions:

* `StudyAnalysis.Samples` — the numbers of one comparison, in the layout of its shape.
-/

import StudyAnalysis.Number.Numeric

set_option autoImplicit false
set_option relaxedAutoImplicit false

namespace StudyAnalysis

/-- The numbers of one comparison. -/
inductive Samples (α : Type)
  /-- Independent groups and their labels. -/
  | groups (labels : List String) (samples : List (List α))
  /-- Related groups and their labels; one participant has the same place in all of them. -/
  | paired (labels : List String) (samples : List (List α))
  /-- Two variables on the same rows. -/
  | bivariate (x y : List α)
  /-- Observed frequencies with the labels of the rows and of the columns. -/
  | contingency (rows cols : List String) (table : List (List α))

namespace Samples

variable {α : Type}

/-- The labels and samples of a comparison of groups. -/
def groups? : Samples α → Option (List String × List (List α))
  | groups labels samples | paired labels samples => some (labels, samples)
  | _ => none

/-- The sample of a label in a comparison of groups. -/
def sampleOf? (s : Samples α) (label : String) : Option (List α) := do
  let (labels, samples) ← s.groups?
  samples[← labels.idxOf? label]?

end Samples

end StudyAnalysis
