/-
**Tests of correlation.**

Main definitions:

* `StudyAnalysis.correlation` — the product-moment correlation;
* `StudyAnalysis.pearson`, `StudyAnalysis.spearman` — its tests on values and on ranks;
* `StudyAnalysis.kendallTau` — the test that counts concordant and discordant pairs.
-/

import StudyAnalysis.Statistics.Descriptive
import StudyAnalysis.Statistics.Ranks
import StudyAnalysis.Statistics.Tails

set_option autoImplicit false
set_option relaxedAutoImplicit false

namespace StudyAnalysis

open Numeric

variable {α : Type} [Numeric α]

/-! ### Product moments -/

/-- The sum of the products of the deviations of aligned values from two centres. -/
def crossProducts (mx my : α) (points : List (α × α)) : α :=
  points.foldl (fun total p => total + (p.1 - mx) * (p.2 - my)) 0

/-- The product-moment correlation of aligned values; a constant variable has none. -/
def correlation (x y : List α) : Except SampleError α :=
  let points := x.zip y
  let mx := mean x
  let my := mean y
  let sxy := crossProducts mx my points
  let sxx := crossProducts mx mx (points.map fun p => (p.1, p.1))
  let syy := crossProducts my my (points.map fun p => (p.2, p.2))
  if sxx ≤ 0 ∨ syy ≤ 0 then .error (.degenerate .constantVariable)
  else .ok (clamp (-1) 1 (sxy / sqrt (sxx * syy)))

/-- The test of a correlation coefficient of `n` points: a perfect correlation is certain, any other
is as probable as its t statistic. -/
def correlationTest [Tails α] (r : α) (n : Nat) : Except SampleError (TestOutput α) := do
  let df : α := ofNat n - 2
  let p ←
    if 1 ≤ Numeric.abs r then pure 0
    else Tails.studentTwoSided (r * sqrt (df / (1 - r * r))) df
  return .clamped r p (some df)

/-- The test of the product-moment correlation. -/
def pearson [Tails α] (x y : List α) : Except SampleError (TestOutput α) := do
  requireAligned x y
  require x 3
  correlationTest (← correlation x y) x.length

/-- The test of the product-moment correlation of the ranks. -/
def spearman [Tails α] (x y : List α) : Except SampleError (TestOutput α) := do
  requireAligned x y
  require x 3
  correlationTest (← correlation (ranks x) (ranks y)) x.length

/-! ### Concordance -/

/-- All pairs of an element with a later one. -/
def laterPairs {β : Type} : List β → List (β × β)
  | [] => []
  | b :: bs => bs.map (b, ·) ++ laterPairs bs

/-- The sign of a difference; zero if the two numbers are equal. -/
def direction (x y : α) : α :=
  signum (x - y) * (if x == y then 0 else 1)

/-- The statistic of the test of orders before it is standardised: concordant less discordant pairs,
and the numbers of pairs tied in the first and in the second variable. -/
structure Concordance (α : Type) where
  score : α
  tiedX : Nat
  tiedY : Nat

/-- The concordance of aligned values. -/
def concordance (x y : List α) : Concordance α :=
  let directions : List (α × α) :=
    (laterPairs (x.zip y)).map fun (p, q) => (direction p.1 q.1, direction p.2 q.2)
  { score := directions.foldl (fun total d => total + d.1 * d.2) 0
    tiedX := directions.countP fun d => d.1 == (0 : α)
    tiedY := directions.countP fun d => d.2 == (0 : α) }

/-- The variance of the score when both variables are independent, corrected for ties. -/
def concordanceVariance (x y : List α) : α :=
  let n := count x
  (n * (n - 1) * (2 * n + 5) - tieSpread x - tieSpread y) / 18

/-- The test of orders; its statistic is corrected for ties in both variables. -/
def kendallTau [Tails α] (x y : List α) : Except SampleError (TestOutput α) := do
  requireAligned x y
  require x 3
  let c := concordance x y
  let pairs : α := ofNat (x.length * (x.length - 1) / 2)
  let denominator := sqrt ((pairs - ofNat c.tiedX) * (pairs - ofNat c.tiedY))
  if denominator ≤ 0 then
    throw (.degenerate .constantVariable)
  let spread := concordanceVariance x y
  let p := if spread ≤ 0 then 1 else Tails.normalTwoSided (c.score / sqrt spread)
  return .clamped (c.score / denominator) p none

end StudyAnalysis
