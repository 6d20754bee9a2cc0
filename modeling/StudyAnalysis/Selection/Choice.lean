/-
**Choosing a test.**

The properties of a comparison are turned into evidence about the assumptions; the evidence is
reconciled with what the user declares; and of the tests whose assumptions are then satisfied the
one that relies on most of them is chosen.

Main definitions:

* `StudyAnalysis.evidence` — what the properties say about the assumptions;
* `StudyAnalysis.mostSpecific?` — the first of the most demanding tests of a list;
* `StudyAnalysis.eligibleTests` — the tests whose assumptions are satisfied;
* `StudyAnalysis.select` — the choice of a test.
-/

import StudyAnalysis.Assumption.Evidence
import StudyAnalysis.Selection.PairProperties
import StudyAnalysis.Study.Settings

set_option autoImplicit false
set_option relaxedAutoImplicit false

namespace StudyAnalysis

variable {α : Type} [Numeric α]

/-! ### Evidence -/

/-- Whether a check keeps its null hypothesis at a threshold; unknown for a check that was not
run. -/
def nullKept (alpha : α) (test : Option (TestOutput α)) : Option Bool :=
  test.map fun t => decide (alpha ≤ t.pValue)

/-- The conjunction of verdicts: false if one of them is, true if there are some and all are, and
unknown otherwise. -/
def allVerdicts (verdicts : List (Option Bool)) : Option Bool :=
  if verdicts.contains (some false) then some false
  else if verdicts.isEmpty || verdicts.contains none then none
  else some true

/-- Whether all checks keep their null hypotheses. -/
def allKept (alpha : α) (tests : List (Option (TestOutput α))) : Option Bool :=
  allVerdicts (tests.map (nullKept alpha))

/-- Whether the samples of all groups or variables pass the check of normality; unknown for a
cross-tabulation. -/
def normalSamples (p : PairProperties α) (settings : Settings α) : Option Bool :=
  if p.shape.isContingency then none else allKept settings.alpha p.normality.values

/-- What the properties of a comparison say about one assumption.  Linear and monotonic relations
are never inferred from data. -/
def verdictOn (p : PairProperties α) (settings : Settings α) : Assumption → Option Bool
  | .independentObservations => p.paired.map (!·)
  | .normalDistribution => normalSamples p settings
  | .normalDifferences => nullKept settings.alpha p.differenceNormality
  | .symmetricDifferences => nullKept settings.alpha p.differenceSymmetry
  | .equalVariances => nullKept settings.alpha p.equalVariance
  | .largeSampleSize =>
    if p.shape.isContingency then p.minExpectedCount.map fun e => decide (5 ≤ e)
    else some (settings.largeSampleThreshold ≤ p.minSampleSize)
  | .valuesAreFrequencies => some p.shape.isContingency
  | .pairedObservations => p.paired
  | .noOutliers => p.outliers.map (· == 0)
  | .noOutliersInDifferences => p.differenceOutliers.map (· == 0)
  | .linearRelationship => none
  | .bivariateNormal => if p.shape = .correlation then normalSamples p settings else none
  | .relatedSamples => p.paired
  | .monotonicRelationship => none
  | .allContinuousOrOrdinal => some p.allRankable
  | .dvContinuousOrOrdinal => some p.dvScale.isRankable

/-- What the properties of a comparison say about the assumptions. -/
def evidence (p : PairProperties α) (settings : Settings α) : Evidence :=
  .ofRecords (Assumption.all.map fun a => ({a}, verdictOn p settings a))

/-! ### Choice -/

/-- The choice of a test. -/
structure Selection where
  method : TestMethod
  /-- The assumptions that are taken to hold. -/
  satisfied : AssumptionSet
  /-- The declarations that were discarded because the data contradict them. -/
  overridden : AssumptionSet
  /-- The declarations that were honoured although the data contradict them, as far as the test
  relies on them. -/
  warnings : List String
  /-- Whether the resampling fallback is used. -/
  fallback : Bool

/-- The next test of a list if it relies on more assumptions than the best one before it, and that one
otherwise. -/
def moreSpecific (best : Option TestMethod) (next : TestMethod) : Option TestMethod :=
  if best.all fun b => b.specificity < next.specificity then some next else best

/-- The first of the tests of a list that rely on most assumptions. -/
def mostSpecific? (ms : List TestMethod) : Option TestMethod :=
  ms.foldl moreSpecific none

/-- The assumptions that are taken to hold. -/
def satisfiedSet (mode : Mode) (e : Evidence) (declared : AssumptionSet) : AssumptionSet :=
  match mode with
  | .strict => e.holds ∪ (declared \ e.violated)
  | .relaxed => e.holds ∪ declared

/-- The warning that a declaration is honoured against the data. -/
def contradictionWarning (method : TestMethod) (a : Assumption) : String :=
  "'" ++ a.name ++ "' was declared but the data contradicts it; relaxed mode proceeds with "
    ++ method.name ++ " as declared"

/-- The tests that can be run on comparisons of a shape and rely on nothing but the given
assumptions, in catalog order. -/
def eligibleTests (shape : Shape) (satisfied : AssumptionSet) : List TestMethod :=
  (TestMethod.candidates shape).filter fun m => m.required ⊆ satisfied

/-- The choice of the given test: what is taken to hold for it, and what becomes of the
declarations that the data contradict. -/
def Selection.ofMethod (mode : Mode) (e : Evidence) (declared : AssumptionSet)
    (method : TestMethod) (fallback : Bool) : Selection where
  method := method
  satisfied := satisfiedSet mode e declared
  overridden :=
    match mode with
    | .strict => declared ∩ e.violated
    | .relaxed => ∅
  warnings :=
    match mode with
    | .strict => []
    | .relaxed =>
      (declared ∩ e.violated ∩ method.required).members.map (contradictionWarning method)
  fallback := fallback

/-- The choice of a test for a comparison, from the evidence and the declarations about it. -/
def select (p : PairProperties α) (e : Evidence) (declared : AssumptionSet)
    (settings : Settings α) : Except (AnalysisError α) Selection :=
  match mostSpecific? (eligibleTests p.shape (satisfiedSet settings.mode e declared)) with
  | some m => .ok (.ofMethod settings.mode e declared m false)
  | none =>
    if settings.bootstrap.enabled then .ok (.ofMethod settings.mode e declared .bootstrap true)
    else .error (.noCandidateTest p.names)

end StudyAnalysis
