/-
**Measurement scales.**

Main definitions:

* `StudyAnalysis.Scale` — the four scales;
* `StudyAnalysis.Scale.isContinuous`, `StudyAnalysis.Scale.isCategorical`,
  `StudyAnalysis.Scale.isRankable` — what the scales have in common.
-/

set_option autoImplicit false
set_option relaxedAutoImplicit false

namespace StudyAnalysis

/-- The scale that a variable is measured on. -/
inductive Scale
  /-- Categories without an order. -/
  | nominal
  /-- Categories in an order. -/
  | ordinal
  /-- Numbers without a true zero. -/
  | interval
  /-- Numbers with a true zero. -/
  | ratio
  deriving DecidableEq

namespace Scale

/-- Whether the values are numbers. -/
def isContinuous : Scale → Bool
  | interval | ratio => true
  | nominal | ordinal => false

/-- Whether the values are categories. -/
def isCategorical : Scale → Bool
  | nominal | ordinal => true
  | interval | ratio => false

/-- Whether the values have an order. -/
def isRankable : Scale → Bool
  | nominal => false
  | ordinal | interval | ratio => true

/-- A scale holds either numbers or categories. -/
theorem isCategorical_eq_not_isContinuous (s : Scale) : s.isCategorical = !s.isContinuous := by
  cases s <;> rfl

/-- The word for the scale. -/
def name : Scale → String
  | nominal => "nominal"
  | ordinal => "ordinal"
  | interval => "interval"
  | ratio => "ratio"

/-- The scale that a word stands for. -/
def ofName? (word : String) : Option Scale :=
  [nominal, ordinal, interval, ratio].find? fun s => s.name == word

end Scale

end StudyAnalysis
