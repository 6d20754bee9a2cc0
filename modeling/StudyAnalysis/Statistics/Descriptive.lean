/-
**Descriptive statistics of one sample.**

Main definitions:

* `StudyAnalysis.mean`, `StudyAnalysis.variance` — the first two moments;
* `StudyAnalysis.median`, `StudyAnalysis.quantile` — positions in the sorted sample; a quantile is read
  by `StudyAnalysis.quantile?`, which fails outside of the sample;
* `StudyAnalysis.tukeyOutliers` — the number of values outside of Tukey's fences.
-/

import StudyAnalysis.Number.Numeric

set_option autoImplicit false
set_option relaxedAutoImplicit false

namespace StudyAnalysis

open Numeric

variable {α : Type} [Numeric α]

/-- The arithmetic mean; the mean of nothing is zero. -/
def mean (xs : List α) : α :=
  if xs.isEmpty then 0 else sum xs / count xs

/-- The squared deviations of a sample from a centre. -/
def squaredDeviations (centre : α) (xs : List α) : List α :=
  xs.map fun x => square (x - centre)

/-- The unbiased sample variance; a sample of fewer than two values has none, which counts as
zero. -/
def variance (xs : List α) : α :=
  if xs.length < 2 then 0
  else sum (squaredDeviations (mean xs) xs) / ofNat (xs.length - 1)

/-- The middle of the sorted sample, or the mean of its two middle values. -/
def median (xs : List α) : α :=
  let ordered := sorted xs
  let middle := xs.length / 2
  if xs.isEmpty then 0
  else if xs.length % 2 = 0 then (ordered.getD (middle - 1) 0 + ordered.getD middle 0) / 2
  else ordered.getD middle 0

/-- The value at the level `q` of the sorted sample, interpolated between its two neighbours; there is
none if one of the two is outside of the sample. -/
def quantile? (xs : List α) (q : α) : Option α := do
  let ordered := sorted xs
  let position := clamp 0 1 q * ofNat (xs.length - 1)
  let low := toNat (floor position)
  let below ← ordered[low]?
  let above ← ordered[toNat (ceil position)]?
  return below + (above - below) * (position - ofNat low)

/-- The value at the level `q` of a sample; that of nothing is zero. -/
def quantile (xs : List α) (q : α) : α :=
  if xs.isEmpty then 0 else (quantile? xs q).getD 0

/-- The number of values that lie more than one and a half interquartile ranges outside of the
quartiles; a sample of fewer than four values has no such outliers. -/
def tukeyOutliers (xs : List α) : Nat :=
  if xs.length < 4 then 0
  else
    let q1 := quantile xs (1 / 4)
    let q3 := quantile xs (3 / 4)
    let reach := 3 / 2 * (q3 - q1)
    let low := q1 - reach
    let high := q3 + reach
    xs.countP fun x => x < low || high < x

end StudyAnalysis
