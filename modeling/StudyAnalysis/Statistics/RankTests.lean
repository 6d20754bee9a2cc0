/-
**Tests on ranks.**

The rank counterparts of the tests on means.  Their p-values come from the normal or the chi-square
distribution and are corrected for ties.

Main definitions:

* `StudyAnalysis.mannWhitneyU`, `StudyAnalysis.wilcoxonSignedRank` — two samples;
* `StudyAnalysis.kruskalWallis`, `StudyAnalysis.friedman` — several samples;
* `StudyAnalysis.rankBiserial`, `StudyAnalysis.matchedRankBiserial`,
  `StudyAnalysis.epsilonSquared` — effect sizes.
-/

import StudyAnalysis.Statistics.MeanTests
import StudyAnalysis.Statistics.Ranks

set_option autoImplicit false
set_option relaxedAutoImplicit false

namespace StudyAnalysis

open Numeric

variable {α : Type} [Numeric α]

/-! ### Two samples -/

/-- The rank sum of the first sample less its least possible value. -/
def uStatistic (a b : List α) : α :=
  sum ((ranks (a ++ b)).take a.length) - count a * (count a + 1) / 2

/-- The variance of the rank statistic of two samples from one population. -/
def uVariance (a b : List α) : α :=
  let n := count a + count b
  count a * count b / 12 * (n + 1 - tieCorrection (a ++ b) / (n * (n - 1)))

/-- The rank-sum test; the statistic is that of the first sample. -/
def mannWhitneyU [Tails α] (a b : List α) : Except SampleError (TestOutput α) := do
  require a 2
  require b 2
  let u := uStatistic a b
  let spread := uVariance a b
  if spread ≤ 0 then
    throw (.degenerate .tiedObservations)
  let z := (u - count a * count b / 2) / sqrt spread
  return .clamped u (Tails.normalTwoSided z) none

/-- The rank-sum statistic on a scale from minus one to one; positive if the first sample tends to
be larger. -/
def rankBiserial (u : α) (n1 n2 : Nat) : α :=
  2 * u / (ofNat n1 * ofNat n2) - 1

/-- The sum of the ranks of the positive differences among the absolute differences. -/
def positiveRankSum (diffs : List α) : α :=
  let signed := diffs.zip (ranks (diffs.map Numeric.abs))
  sum ((signed.filter fun p => 0 < p.1).map (·.2))

/-- The variance of the rank sum when each sign is as likely as the other. -/
def signedRankVariance (diffs : List α) : α :=
  let n := count diffs
  n * (n + 1) * (2 * n + 1) / 24 - tieCorrection (diffs.map Numeric.abs) / 48

/-- The differences of aligned samples that are not zero. -/
def nonzeroDifferences (x y : List α) : Except SampleError (List α) := do
  return (← differences x y).filter fun d => !(d == 0)

/-- The signed-rank test on the differences that are not zero. -/
def wilcoxonSignedRank [Tails α] (x y : List α) : Except SampleError (TestOutput α) := do
  let diffs ← nonzeroDifferences x y
  require diffs 2
  let n := count diffs
  let t := positiveRankSum diffs
  let spread := signedRankVariance diffs
  if spread ≤ 0 then
    throw (.degenerate .tiedDifferences)
  let z := (t - n * (n + 1) / 4) / sqrt spread
  return .clamped t (Tails.normalTwoSided z) none

/-- The signed-rank statistic of `n` differences on a scale from minus one to one. -/
def matchedRankBiserial (t : α) (n : Nat) : α :=
  let total : α := ofNat n * (ofNat n + 1) / 2
  if total ≤ 0 then 0 else 2 * t / total - 1

/-! ### Several independent groups -/

/-- A list cut into pieces of the lengths of the given groups. -/
def splitLike {β γ : Type} : List (List β) → List γ → List (List γ)
  | [], _ => []
  | g :: gs, xs => xs.take g.length :: splitLike gs (xs.drop g.length)

/-- The weighted squared distances of the mean ranks of the groups from the overall mean rank. -/
def rankSpread (groups : List (List α)) : α :=
  let middle := (ofNat groups.flatten.length + 1) / 2
  (splitLike groups (ranks groups.flatten)).foldl
    (fun total g => total + count g * square (sum g / count g - middle)) 0

/-- The rank analysis of variance of independent groups. -/
def kruskalWallis [Tails α] (groups : List (List α)) : Except SampleError (TestOutput α) := do
  requireGroups groups
  let pooled := groups.flatten
  let n := count pooled
  let h := rankSpread groups * (12 / (n * (n + 1)))
  let correction := 1 - tieCorrection pooled / (n * n * n - n)
  if correction ≤ 0 then
    throw (.degenerate .tiedObservations)
  let h := h / correction
  let df := ofNat (groups.length - 1)
  return .clamped h (Tails.chiSquare h df) (some df)

/-- The rank analysis of variance on a scale from zero to one; zero for fewer than two
observations. -/
def epsilonSquared (h : α) (n : Nat) : α :=
  if n < 2 then 0 else h / (ofNat n - 1)

/-! ### Several related conditions -/

/-- The observations of one block in every condition. -/
def block (conditions : List (List α)) (i : Nat) : List α :=
  conditions.map (·.getD i 0)

/-- The blocks of aligned conditions. -/
def blocks (conditions : List (List α)) (n : Nat) : List (List α) :=
  (List.range n).map (block conditions)

/-- The sum of the ranks of each condition over the blocks. -/
def conditionRankSums (conditions : List (List α)) (n : Nat) : List α :=
  (blocks conditions n).foldl (fun sums row => List.zipWith (· + ·) sums (ranks row))
    (conditions.map fun _ => 0)

/-- The rank analysis of variance of related conditions, whose observations are aligned. -/
def friedman [Tails α] (conditions : List (List α)) : Except SampleError (TestOutput α) := do
  require conditions 2
  let first := conditions.headD []
  conditions.forM (requireAligned first)
  require first 2
  let n := count first
  let k := count conditions
  let squares := (conditionRankSums conditions first.length).map square
  let ties := (blocks conditions first.length).foldl (fun total row => total + tieCorrection row) 0
  let q := 12 / (n * k * (k + 1)) * sum squares - 3 * n * (k + 1)
  let correction := 1 - ties / (n * k * (k * k - 1))
  if correction ≤ 0 then
    throw (.degenerate .tiedBlocks)
  let q := q / correction
  let df := k - 1
  return .clamped q (Tails.chiSquare q df) (some df)

end StudyAnalysis
