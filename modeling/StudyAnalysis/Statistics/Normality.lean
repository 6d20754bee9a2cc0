/-
**Tests of the shape of a distribution.**

Skewness and kurtosis of a sample are transformed to numbers that are normal if the population is;
their squares add up to the omnibus test of normality.  Levene's test compares the spreads of
several groups.

Main definitions:

* `StudyAnalysis.skewTest` — symmetry;
* `StudyAnalysis.normalTest` — normality;
* `StudyAnalysis.levene` — equal variances.
-/

import StudyAnalysis.Statistics.MeanTests

set_option autoImplicit false
set_option relaxedAutoImplicit false

namespace StudyAnalysis

open Numeric

variable {α : Type} [Numeric α]

/-- The smallest sample that the tests of skewness and normality take. -/
def normalityMinimum : Nat := 8

/-- The second, third and fourth central moment. -/
structure CentralMoments (α : Type) where
  m2 : α
  m3 : α
  m4 : α

/-- The central moments of a sample. -/
def centralMoments (xs : List α) : CentralMoments α :=
  let centre := mean xs
  let average (f : α → α) : α := xs.foldl (fun total x => total + f (x - centre)) 0 / count xs
  { m2 := average square
    m3 := average fun d => square d * d
    m4 := average fun d => square d * square d }

/-- The central moments of a sample that varies. -/
def varyingMoments (xs : List α) : Except SampleError (CentralMoments α) :=
  let moments := centralMoments xs
  if moments.m2 ≤ 0 then .error (.degenerate .constantSample) else .ok moments

/-- The number that is normally distributed if the skewness comes from a normal population. -/
def skewScore (xs : List α) : Except SampleError α := do
  let moments ← varyingMoments xs
  let n := count xs
  let skewness := moments.m3 / pow moments.m2 (3 / 2)
  let y := skewness * sqrt ((n + 1) * (n + 3) / (6 * (n - 2)))
  let beta2 := 3 * (n * n + 27 * n - 70) * (n + 1) * (n + 3)
    / ((n - 2) * (n + 5) * (n + 7) * (n + 9))
  let w2 := -1 + sqrt (2 * (beta2 - 1))
  let delta := 1 / sqrt (1 / 2 * log w2)
  let alpha := sqrt (2 / (w2 - 1))
  let y := if y == 0 then 1 else y
  return delta * log (y / alpha + sqrt (square (y / alpha) + 1))

/-- The number that is normally distributed if the kurtosis comes from a normal population. -/
def kurtosisScore (xs : List α) : Except SampleError α := do
  let moments ← varyingMoments xs
  let n := count xs
  let kurtosis := moments.m4 / (moments.m2 * moments.m2)
  let expected := 3 * (n - 1) / (n + 1)
  let spread := 24 * n * (n - 2) * (n - 3) / (square (n + 1) * (n + 3) * (n + 5))
  let x := (kurtosis - expected) / sqrt spread
  let rootBeta1 := 6 * (n * n - 5 * n + 2) / ((n + 7) * (n + 9))
    * sqrt (6 * (n + 3) * (n + 5) / (n * (n - 2) * (n - 3)))
  let a := 6 + 8 / rootBeta1 * (2 / rootBeta1 + sqrt (1 + 4 / square rootBeta1))
  let term1 := 1 - 2 / (9 * a)
  let denominator := 1 + x * sqrt (2 / (a - 4))
  if denominator == 0 then
    throw (.degenerate .kurtosisTransform)
  let term2 := signum denominator * cbrt ((1 - 2 / a) / Numeric.abs denominator)
  return (term1 - term2) / sqrt (2 / (9 * a))

/-- The test of symmetry by the skewness. -/
def skewTest [Tails α] (xs : List α) : Except SampleError (TestOutput α) := do
  require xs normalityMinimum
  let z ← skewScore xs
  return .clamped z (Tails.normalTwoSided z) none

/-- The omnibus test of normality by skewness and kurtosis. -/
def normalTest [Tails α] (xs : List α) : Except SampleError (TestOutput α) := do
  require xs normalityMinimum
  let k2 := square (← skewScore xs) + square (← kurtosisScore xs)
  return .clamped k2 (Tails.chiSquare k2 2) (some 2)

/-- The absolute deviations of a sample from its median. -/
def medianDeviations (xs : List α) : List α :=
  let centre := median xs
  xs.map fun x => Numeric.abs (x - centre)

/-- The test of equal variances: the analysis of variance of the deviations from the medians. -/
def levene [Tails α] (groups : List (List α)) : Except SampleError (TestOutput α) :=
  oneWayAnova (groups.map medianDeviations)

end StudyAnalysis
