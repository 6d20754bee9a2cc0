/-
**Tests that compare means.**

The t-tests of two independent or paired samples, the analysis of variance, and the effect sizes
that go with them.

Main definitions:

* `StudyAnalysis.studentsT`, `StudyAnalysis.welchT`, `StudyAnalysis.pairedT` — the t-tests;
* `StudyAnalysis.sumsOfSquares`, `StudyAnalysis.oneWayAnova` — the analysis of variance;
* `StudyAnalysis.cohensD`, `StudyAnalysis.cohensDz`, `StudyAnalysis.etaSquared` — effect sizes.
-/

import StudyAnalysis.Statistics.Descriptive
import StudyAnalysis.Statistics.Tails

set_option autoImplicit false
set_option relaxedAutoImplicit false

namespace StudyAnalysis

open Numeric

variable {α : Type} [Numeric α]

/-! ### Two independent samples -/

/-- The variance of two samples about their own means, weighted by degrees of freedom. -/
def pooledVariance (a b : List α) : α :=
  ((count a - 1) * variance a + (count b - 1) * variance b) / (count a + count b - 2)

/-- Student's t-test: the difference of the means over its standard error under equal variances. -/
def studentsT [Tails α] (a b : List α) : Except SampleError (TestOutput α) := do
  require a 2
  require b 2
  let pooled := pooledVariance a b
  if pooled ≤ 0 then
    throw (.degenerate .constantGroups)
  let t := (mean a - mean b) / sqrt (pooled * (1 / count a + 1 / count b))
  let df := count a + count b - 2
  return .clamped t (← Tails.studentTwoSided t df) (some df)

/-- The squared standard error of a sample mean. -/
def squaredError (xs : List α) : α :=
  variance xs / count xs

/-- The degrees of freedom of the difference of two means with unequal variances. -/
def welchDf (a b : List α) : α :=
  square (squaredError a + squaredError b)
    / (square (squaredError a) / (count a - 1) + square (squaredError b) / (count b - 1))

/-- Welch's t-test: the difference of the means over its standard error, whatever the variances. -/
def welchT [Tails α] (a b : List α) : Except SampleError (TestOutput α) := do
  require a 2
  require b 2
  let total := squaredError a + squaredError b
  if total ≤ 0 then
    throw (.degenerate .constantGroups)
  let t := (mean a - mean b) / sqrt total
  let df := welchDf a b
  return .clamped t (← Tails.studentTwoSided t df) (some df)

/-- The difference of the means in units of the pooled standard deviation; zero if that vanishes. -/
def cohensD (a b : List α) : α :=
  let pooled := pooledVariance a b
  if pooled ≤ 0 then 0 else (mean a - mean b) / sqrt pooled

/-! ### Paired samples -/

/-- The differences of aligned values, as far as both samples go. -/
def pairedDifferences (x y : List α) : List α :=
  List.zipWith (· - ·) x y

/-- The differences of two samples of one length. -/
def differences (x y : List α) : Except SampleError (List α) := do
  requireAligned x y
  return pairedDifferences x y

/-- The paired t-test: the mean difference over its standard error. -/
def pairedT [Tails α] (x y : List α) : Except SampleError (TestOutput α) := do
  let diffs ← differences x y
  require diffs 2
  let deviation := sqrt (variance diffs)
  if deviation ≤ 0 then
    throw (.degenerate .constantDifferences)
  let t := mean diffs / (deviation / sqrt (count diffs))
  let df := count diffs - 1
  return .clamped t (← Tails.studentTwoSided t df) (some df)

/-- The mean difference in units of the standard deviation of the differences; zero if that
vanishes. -/
def cohensDz (x y : List α) : α :=
  let diffs := pairedDifferences x y
  let deviation := sqrt (variance diffs)
  if deviation ≤ 0 then 0 else mean diffs / deviation

/-! ### Several groups -/

/-- The mean of all observations of all groups. -/
def grandMean (groups : List (List α)) : α :=
  sum groups.flatten / ofNat (max groups.flatten.length 1)

/-- The squared distance of the group mean from a centre, weighted by the size of the group. -/
def betweenTerm (centre : α) (group : List α) : α :=
  count group * square (mean group - centre)

/-- The sums of squares between and within groups. -/
def sumsOfSquares (groups : List (List α)) : α × α :=
  let grand := grandMean groups
  (groups.foldl (fun total g => total + betweenTerm grand g) 0,
    groups.foldl (fun total g => total + sum (squaredDeviations (mean g) g)) 0)

/-- Fails unless there are two groups and each of them has two observations. -/
def requireGroups (groups : List (List α)) : Except SampleError Unit := do
  require groups 2
  groups.forM (require · 2)

/-- The analysis of variance; the reported degrees of freedom are those between groups. -/
def oneWayAnova [Tails α] (groups : List (List α)) : Except SampleError (TestOutput α) := do
  requireGroups groups
  let (between, within) := sumsOfSquares groups
  let df1 := count groups - 1
  let df2 := ofNat groups.flatten.length - count groups
  let withinMean := within / df2
  if withinMean ≤ 0 then
    throw (.degenerate .constantWithinGroups)
  let f := between / df1 / withinMean
  return .clamped f (Tails.fRatio f df1 df2) (some df1)

/-- The share of the sum of squares that lies between groups; zero if nothing varies. -/
def etaSquared (groups : List (List α)) : α :=
  let (between, within) := sumsOfSquares groups
  let total := between + within
  if total ≤ 0 then 0 else between / total

end StudyAnalysis
