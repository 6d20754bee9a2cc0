/-
**The catalog of tests.**

Main definitions:

* `StudyAnalysis.Shape` — the form of a comparison;
* `StudyAnalysis.TestMethod.required` — the assumptions that a test relies on;
* `StudyAnalysis.TestMethod.appliesTo` — whether a test can be run on a comparison of some shape;
* `StudyAnalysis.TestMethod.candidates` — the tests of the catalog that can.
-/

import StudyAnalysis.Assumption.Basic
import StudyAnalysis.Statistics.Method

set_option autoImplicit false
set_option relaxedAutoImplicit false

namespace StudyAnalysis

/-- The form of a comparison of two variables. -/
inductive Shape
  /-- An outcome is compared across the levels of a factor. -/
  | groupComparison (groups : Nat) (paired : Bool)
  /-- Two ordered variables are measured on the same rows. -/
  | correlation
  /-- Two categorical variables are cross-tabulated. -/
  | contingency (rows cols : Nat)
  deriving DecidableEq

/-- Whether two categorical variables are cross-tabulated. -/
def Shape.isContingency : Shape → Bool
  | contingency _ _ => true
  | groupComparison _ _ | correlation => false

/-- The shape in words. -/
def Shape.toText : Shape → String
  | groupComparison groups true => toString groups ++ " related groups"
  | groupComparison groups false => toString groups ++ " independent groups"
  | correlation => "correlation"
  | contingency rows cols => toString rows ++ "x" ++ toString cols ++ " contingency table"

namespace TestMethod

/-- The assumptions that a test relies on. -/
def required (m : TestMethod) : AssumptionSet :=
  .ofList <| match m with
  | studentsT | oneWayAnova =>
    [.independentObservations, .normalDistribution, .equalVariances, .dvContinuousOrOrdinal]
  | welchT => [.independentObservations, .normalDistribution, .dvContinuousOrOrdinal]
  | mannWhitneyU | kruskalWallis => [.independentObservations, .dvContinuousOrOrdinal]
  | pairedT =>
    [.pairedObservations, .normalDifferences, .noOutliersInDifferences, .dvContinuousOrOrdinal]
  | wilcoxonSignedRank => [.pairedObservations, .symmetricDifferences, .dvContinuousOrOrdinal]
  | friedman => [.relatedSamples, .dvContinuousOrOrdinal]
  | pearson =>
    [.independentObservations, .linearRelationship, .bivariateNormal, .noOutliers,
      .allContinuousOrOrdinal]
  | spearman => [.independentObservations, .monotonicRelationship, .allContinuousOrOrdinal]
  | kendallTau => [.independentObservations, .allContinuousOrOrdinal]
  | chiSquare => [.independentObservations, .valuesAreFrequencies, .largeSampleSize]
  | fisherExact => [.independentObservations, .valuesAreFrequencies]
  | bootstrap => []

/-- The number of assumptions that a test relies on. -/
def specificity (m : TestMethod) : Nat :=
  m.required.size

/-- Whether a test can be run on comparisons of a shape. -/
def appliesTo (m : TestMethod) (shape : Shape) : Bool :=
  match m, shape with
  | studentsT, .groupComparison 2 false => true
  | welchT, .groupComparison 2 false => true
  | mannWhitneyU, .groupComparison 2 false => true
  | pairedT, .groupComparison 2 true => true
  | wilcoxonSignedRank, .groupComparison 2 true => true
  | oneWayAnova, .groupComparison groups false => 3 ≤ groups
  | kruskalWallis, .groupComparison groups false => 3 ≤ groups
  | friedman, .groupComparison groups true => 3 ≤ groups
  | pearson, .correlation => true
  | spearman, .correlation => true
  | kendallTau, .correlation => true
  | chiSquare, .contingency _ _ => true
  | fisherExact, .contingency 2 2 => true
  | bootstrap, _ => true
  | _, _ => false

/-- The tests of the catalog that can be run on comparisons of a shape, in catalog order. -/
def candidates (shape : Shape) : List TestMethod :=
  catalog.filter (·.appliesTo shape)

theorem mem_candidates (m : TestMethod) (shape : Shape) :
    m ∈ candidates shape ↔ m ≠ bootstrap ∧ m.appliesTo shape = true := by
  simp [candidates, mem_catalog_iff]

end TestMethod

end StudyAnalysis
