/-
**Properties of a comparison.**

The selection of a test looks at a comparison only through these properties.

Main definitions:

* `StudyAnalysis.VariableProperties` — properties of one variable;
* `StudyAnalysis.PairProperties` — properties of a comparison of two variables;
* `StudyAnalysis.PairProperties.observedOrder`, `StudyAnalysis.PairProperties.observedSign` — the
  direction in which the samples differ;
* `StudyAnalysis.PairProperties.snapshot` — the properties as named numbers.
-/

import StudyAnalysis.Data.NameMap
import StudyAnalysis.Data.Scale
import StudyAnalysis.Selection.Catalog
import StudyAnalysis.Selection.Samples
import StudyAnalysis.Statistics.Correlation

set_option autoImplicit false
set_option relaxedAutoImplicit false

namespace StudyAnalysis

/-- Properties of one variable. -/
structure VariableProperties (α : Type) where
  sampleSize : Nat
  /-- The test of normality of a numeric variable. -/
  normality : Option (TestOutput α)
  /-- The variance of a numeric variable. -/
  variance : Option α
  /-- The number of declared categories of a categorical variable. -/
  categoryCount : Option Nat

/-- Properties of a comparison of two variables.  A property that the data do not determine is
`none`. -/
structure PairProperties (α : Type) where
  explanatory : String
  response : String
  shape : Shape
  samples : Samples α
  /-- Whether the comparison is within subjects; unknown without roles. -/
  paired : Option Bool
  /-- The scale of the measured variable. -/
  dvScale : Scale
  /-- Whether both variables have an order. -/
  allRankable : Bool
  /-- The number of observations of every group or variable. -/
  sampleSizes : NameMap Nat
  /-- The test of normality of every group or variable. -/
  normality : NameMap (Option (TestOutput α))
  equalVariance : Option (TestOutput α)
  outliers : Option Nat
  differenceNormality : Option (TestOutput α)
  differenceSymmetry : Option (TestOutput α)
  differenceOutliers : Option Nat
  minExpectedCount : Option α
  /-- The properties of both variables on their own. -/
  variableProperties : NameMap (VariableProperties α)

namespace PairProperties

variable {α : Type}

/-- The name of the comparison. -/
def key (p : PairProperties α) : String :=
  p.response ++ "::" ++ p.explanatory

/-- The names of the two variables, the explaining one first. -/
def names (p : PairProperties α) : List String :=
  [p.explanatory, p.response]

/-- The size of the smallest sample; zero if there is none. -/
def minSampleSize (p : PairProperties α) : Nat :=
  p.sampleSizes.values.min?.getD 0

/-- Whether the first group has the larger mean; unknown unless both are groups of the
comparison. -/
def observedOrder [Numeric α] (p : PairProperties α) (greater lesser : String) : Option Bool := do
  let g ← p.samples.sampleOf? greater
  let l ← p.samples.sampleOf? lesser
  return decide (mean l < mean g)

/-- The sign of the correlation of two variables. -/
def observedSign [Numeric α] (p : PairProperties α) : Option α :=
  match p.samples with
  | .bivariate x y => (correlation x y).toOption.map Numeric.signum
  | _ => none

/-- An optional property as a named number. -/
def named (name : String) (value : Option α) : List (String × α) :=
  (value.map fun x => (name, x)).toList

/-- The name of a property of one group or variable. -/
def indexed (property name : String) : String :=
  property ++ "[" ++ name ++ "]"

/-- The properties of one variable as named numbers. -/
def variableEntries [Numeric α] (name : String) (v : VariableProperties α) : List (String × α) :=
  [(indexed "n" name, Numeric.ofNat v.sampleSize)]
    ++ named (indexed "variable_normality_p" name) (v.normality.map (·.pValue))
    ++ named (indexed "variance" name) v.variance
    ++ named (indexed "categories" name) (v.categoryCount.map Numeric.ofNat)

/-- The properties as named numbers, in the order of their names. -/
def snapshot [Numeric α] (p : PairProperties α) : NameMap α :=
  .ofList <|
    p.variableProperties.entries.flatMap (fun (name, v) => variableEntries name v)
    ++ p.sampleSizes.entries.map (fun (label, n) => (indexed "sample_size" label, Numeric.ofNat n))
    ++ p.normality.entries.flatMap (fun (label, test) =>
        named (indexed "normality_p" label) (test.map (·.pValue)))
    ++ named "paired" (p.paired.map fun b => if b then 1 else 0)
    ++ named "equal_variance_p" (p.equalVariance.map (·.pValue))
    ++ named "outliers" (p.outliers.map Numeric.ofNat)
    ++ named "difference_normality_p" (p.differenceNormality.map (·.pValue))
    ++ named "difference_symmetry_p" (p.differenceSymmetry.map (·.pValue))
    ++ named "difference_outliers" (p.differenceOutliers.map Numeric.ofNat)
    ++ named "min_expected_count" p.minExpectedCount

end PairProperties

end StudyAnalysis
