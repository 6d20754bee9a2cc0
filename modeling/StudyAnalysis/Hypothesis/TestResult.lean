/-
**Results of comparisons.**

A result holds what a test answered and what it was based on.  Its p-value may be made one-sided
once and adjusted for multiple comparisons once.

Main definitions:

* `StudyAnalysis.TestResult` — the result of one comparison;
* `StudyAnalysis.TestResult.adjust`, `StudyAnalysis.TestResult.makeOneSided` — the changes of its
  p-value;
* `StudyAnalysis.TestResult.report`, `StudyAnalysis.TestResult.toDocument` — how it is shown.
-/

import StudyAnalysis.Document.Value
import StudyAnalysis.Hypothesis.Prediction
import StudyAnalysis.Selection.Choice
import StudyAnalysis.Selection.Execution

set_option autoImplicit false
set_option relaxedAutoImplicit false

namespace StudyAnalysis

/-- The result of one comparison. -/
structure TestResult (α : Type) where
  method : TestMethod
  /-- The names of the two variables, the explaining one first. -/
  names : List String
  statistic : α
  df : Option α
  pValue : α
  /-- The p-value after the correction for multiple comparisons. -/
  adjusted : Option α
  /-- The significance threshold. -/
  alpha : α
  /-- Whether the p-value was taken towards a prediction. -/
  oneSided : Bool
  predictions : List Prediction
  effectSizes : NameMap α
  properties : NameMap α
  warnings : List String

namespace TestResult

variable {α : Type}

/-- The result of running the chosen test on a comparison. -/
def ofExecution [Numeric α] (s : Selection) (x : Execution α) (p : PairProperties α)
    (settings : Settings α) : TestResult α where
  method := s.method
  names := p.names
  statistic := x.output.statistic
  df := x.output.df
  pValue := x.output.pValue
  adjusted := none
  alpha := settings.alpha
  oneSided := false
  predictions := []
  effectSizes := x.effectSizes
  properties := p.snapshot
  warnings := s.warnings

/-- The explanations of the assumptions that the test relies on. -/
def assumptions (r : TestResult α) : List String :=
  r.method.required.explanations

/-! ### Changes -/

/-- Sets the adjusted p-value, which a result may get only once, and answers with the result that
there is afterwards.  A second adjustment is refused and leaves the result as it was. -/
def setAdjusted (r : TestResult α) (value : α) : Except (AnalysisError α) Unit × TestResult α :=
  match r.adjusted with
  | some _ => (.error (.alreadyAdjusted r.method), r)
  | none => (.ok (), { r with adjusted := some value })

/-- Sets the adjusted p-value to the p-value divided by the number of comparisons. -/
def adjust [Numeric α] (r : TestResult α) (comparisons : α) :
    Except (AnalysisError α) Unit × TestResult α :=
  r.setAdjusted (r.pValue / comparisons)

/-- The result with a named effect size, in place of an earlier one of that name. -/
def addEffectSize (r : TestResult α) (name : String) (size : α) : TestResult α :=
  { r with effectSizes := r.effectSizes.insert name size }

/-- The result with its p-value taken towards a prediction: half of it if the prediction came true,
and what the other half lacks to one otherwise.  A p-value that is one-sided already stays. -/
def makeOneSided [Numeric α] (r : TestResult α) (confirmed : Bool) : TestResult α :=
  if r.oneSided then r
  else
    let half := r.pValue / 2
    { r with pValue := if confirmed then half else 1 - half, oneSided := true }

/-- The p-value that decides: the adjusted one if there is one. -/
def effectivePValue (r : TestResult α) : α :=
  r.adjusted.getD r.pValue

/-- Whether the effective p-value is below the threshold. -/
def isSignificant [Numeric α] (r : TestResult α) : Bool :=
  r.effectivePValue < r.alpha

/-! ### Display -/

section Display

variable [NumberText α]

/-- The statistic with its degrees of freedom. -/
def statisticText (r : TestResult α) : String :=
  NumberText.fixed 4 r.statistic
    ++ (match r.df with
      | some df => " (df = " ++ NumberText.shortest df ++ ")"
      | none => "")

/-- The p-value with its sidedness. -/
def pValueText (r : TestResult α) : String :=
  NumberText.fixed 6 r.pValue ++ (if r.oneSided then " (one-sided)" else " (two-sided)")

/-- The effect sizes, one in a line. -/
def effectLines (r : TestResult α) : List String :=
  r.effectSizes.entries.map fun (name, size) => "  " ++ name ++ ": " ++ NumberText.fixed 4 size

/-- A heading with lines under it; nothing if there are no lines. -/
def headed (heading : String) (lines : List String) : List String :=
  if lines.isEmpty then [] else heading :: lines

/-- The lines of the report on a result. -/
def reportLines (r : TestResult α) : List String :=
  ["Test: " ++ r.method.name,
    "Variables: " ++ ", ".intercalate r.names,
    "Statistic: " ++ r.statisticText,
    "p-value: " ++ r.pValueText]
  ++ (r.adjusted.map fun p => "Adjusted p-value: " ++ NumberText.fixed 6 p).toList
  ++ ["Alpha: " ++ NumberText.shortest r.alpha]
  ++ (if r.predictions.isEmpty then []
      else ["Predictions: " ++ "; ".intercalate (r.predictions.map Prediction.toText)])
  ++ headed "Effect sizes:" r.effectLines
  ++ headed "Assumptions:" (r.assumptions.map ("  - " ++ ·))
  ++ r.warnings.map ("Warning: " ++ ·)

/-- The report on a result; every line is ended. -/
def report (r : TestResult α) : String :=
  String.join (r.reportLines.map (· ++ "\n"))

end Display

/-- Named numbers as a document. -/
def numberTable (m : NameMap α) : Value α :=
  .table (m.entries.map fun (name, x) => (name, .real x))

/-- The result as a document. -/
def toDocument (r : TestResult α) : Value α :=
  .table <|
    [("test", .text r.method.identifier),
      ("test_name", .text r.method.name),
      ("variables", .ofTexts r.names),
      ("statistic", .real r.statistic)]
    ++ (r.df.map fun df => ("df", .real df)).toList
    ++ [("p_value", .real r.pValue),
      ("adjusted_p_value", .ofOptional .real r.adjusted),
      ("alpha", .real r.alpha),
      ("one_sided", .bool r.oneSided),
      ("predictions", .ofTexts (r.predictions.map Prediction.toText)),
      ("effect_sizes", numberTable r.effectSizes),
      ("properties", numberTable r.properties),
      ("assumptions", .ofTexts r.assumptions),
      ("warnings", .ofTexts r.warnings)]

end TestResult

end StudyAnalysis
