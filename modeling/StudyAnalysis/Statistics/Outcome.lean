/-
**What a test answers.**

A test answers a statistic and a p-value, or says why the samples do not allow one.

Main definitions:

* `StudyAnalysis.SampleError` — the reasons for which a test cannot be run;
* `StudyAnalysis.TestOutput` — statistic, p-value and degrees of freedom.
-/

import StudyAnalysis.Number.Numeric
import StudyAnalysis.Statistics.Method

set_option autoImplicit false
set_option relaxedAutoImplicit false

namespace StudyAnalysis

/-- What is degenerate about samples. -/
inductive Degeneracy
  /-- Neither of two groups varies. -/
  | constantGroups
  /-- All paired differences are equal. -/
  | constantDifferences
  /-- No group varies within itself. -/
  | constantWithinGroups
  /-- One of two correlated variables does not vary. -/
  | constantVariable
  /-- A single sample does not vary. -/
  | constantSample
  /-- All observations share one rank. -/
  | tiedObservations
  /-- The signed ranks have no spread. -/
  | tiedDifferences
  /-- In every block all conditions share one rank. -/
  | tiedBlocks
  /-- A row or a column of a table is empty. -/
  | emptyMargin
  /-- The normalising transform of the kurtosis has a zero denominator. -/
  | kurtosisTransform
  /-- The samples do not have the layout that the test needs. -/
  | unsuited (method : TestMethod)
  deriving DecidableEq

/-- The degeneracy in words. -/
def Degeneracy.message : Degeneracy → String
  | constantGroups => "both groups have zero variance"
  | constantDifferences => "paired differences have zero variance"
  | constantWithinGroups => "within-group variance is zero"
  | constantVariable => "a variable is constant"
  | constantSample => "sample is constant"
  | tiedObservations => "all observations are tied"
  | tiedDifferences => "all differences are tied"
  | tiedBlocks => "every block is fully tied"
  | emptyMargin => "a row or column total is zero"
  | kurtosisTransform => "kurtosis transform is undefined"
  | unsuited method => method.name ++ " cannot run on these samples"

/-- The reasons for which a test cannot be run on samples. -/
inductive SampleError
  /-- There are fewer observations, groups or resamples than the test needs. -/
  | insufficientData (needed got : Nat)
  /-- The samples leave the statistic undefined. -/
  | degenerate (cause : Degeneracy)
  /-- The reference distribution does not exist for the computed degrees of freedom. -/
  | badParameters
  /-- Aligned samples are of different lengths. -/
  | lengthMismatch (left right : Nat)
  deriving DecidableEq

/-- The reason in words. -/
def SampleError.message : SampleError → String
  | insufficientData needed got =>
    "insufficient data: need at least " ++ toString needed ++ " observations, got " ++ toString got
  | degenerate cause => "degenerate sample: " ++ cause.message
  | badParameters => "distribution error: Bad distribution parameters"
  | lengthMismatch left right =>
    "paired samples differ in length (" ++ toString left ++ " vs " ++ toString right ++ ")"

/-- What a test answers. -/
structure TestOutput (α : Type) where
  statistic : α
  pValue : α
  /-- The degrees of freedom, if the reference distribution has them. -/
  df : Option α

variable {α : Type} [Numeric α]

/-- The output whose p-value is moved into the unit interval. -/
def TestOutput.clamped (statistic pValue : α) (df : Option α) : TestOutput α :=
  ⟨statistic, Numeric.clamp 0 1 pValue, df⟩

/-- Fails unless the list has a least number of elements. -/
def require {β : Type} (xs : List β) (needed : Nat) : Except SampleError Unit :=
  if xs.length < needed then .error (.insufficientData needed xs.length) else .ok ()

/-- Requiring a length succeeds exactly on the lists that have it. -/
theorem require_eq_ok_iff {β : Type} (xs : List β) (needed : Nat) :
    require xs needed = .ok () ↔ needed ≤ xs.length := by
  unfold require
  split <;> simp_all

/-- Fails unless the two lists are equally long. -/
def requireAligned {β γ : Type} (xs : List β) (ys : List γ) : Except SampleError Unit :=
  if xs.length = ys.length then .ok () else .error (.lengthMismatch xs.length ys.length)

/-- Requiring alignment succeeds exactly on lists of one length. -/
theorem requireAligned_eq_ok_iff {β γ : Type} (xs : List β) (ys : List γ) :
    requireAligned xs ys = .ok () ↔ xs.length = ys.length := by
  unfold requireAligned
  split <;> simp_all

end StudyAnalysis
