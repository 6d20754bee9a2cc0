/-
**Running a test.**

A test is run on the samples of a comparison, together with the effect size that goes with it.  The
resampling fallback runs on samples of any layout: it measures how far the groups lie apart, how
strongly two variables correlate, or how far a table is from independence.

Main definitions:

* `StudyAnalysis.Execution` — the output of a test with effect sizes;
* `StudyAnalysis.runTest` — a test on samples;
* `StudyAnalysis.runBootstrap` — the resampling fallback;
* `StudyAnalysis.execute` — a test on samples, as a step of an analysis.
-/

import StudyAnalysis.Data.NameMap
import StudyAnalysis.Random.ChaCha
import StudyAnalysis.Selection.Samples
import StudyAnalysis.Statistics.Correlation
import StudyAnalysis.Statistics.Frequencies
import StudyAnalysis.Statistics.RankTests
import StudyAnalysis.Statistics.Resampling
import StudyAnalysis.Study.Settings

set_option autoImplicit false
set_option relaxedAutoImplicit false

namespace StudyAnalysis

open Numeric

/-- The output of a test with effect sizes. -/
structure Execution (α : Type) where
  output : TestOutput α
  effectSizes : NameMap α

variable {α : Type} [Numeric α]

/-- The output with one effect size, which is left out if it is not finite. -/
def Execution.ofEffect (output : TestOutput α) (name : String) (size : α) : Execution α :=
  ⟨output, if isFinite size then (∅ : NameMap α).insert name size else ∅⟩

/-! ### The resampling fallback -/

/-- Every value of a list of groups with the number of its group. -/
def codedValues (groups : List (List α)) : List (Nat × α) :=
  groups.zipIdx.flatMap fun (group, code) => group.map (code, ·)

/-- The numbers below the greatest code of a list, and that code. -/
def codeRange (codes : List Nat) : List Nat :=
  List.range (codes.foldl (fun bound code => max bound (code + 1)) 0)

/-- The sum of squares between the groups that codes tell apart; a code without values is no
group. -/
def codedBetween (codes : List Nat) (values : List α) : α :=
  let points := codes.zip values
  let groups := (codeRange codes).map fun code =>
    (points.filter fun p => p.1 == code).map (·.2)
  let grand := mean values
  let square' (g : List α) : α := count g * square (mean g - grand)
  sum ((groups.filter fun g => !g.isEmpty).map square')

/-- The pairs of row and column number of all observations of a table. -/
def expandTable (table : List (List α)) : List (Nat × Nat) :=
  table.zipIdx.flatMap fun (row, i) =>
    row.zipIdx.flatMap fun (cell, j) => List.replicate (toNat cell) (i, j)

/-- The codes that occur in a list, in ascending order. -/
def occurring (codes : List Nat) : List Nat :=
  (codeRange codes).filter codes.contains

/-- The chi-square statistic, without correction, of two lists of codes. -/
def codedChiSquare (rows cols : List Nat) : α :=
  let points := rows.zip cols
  let n : α := count rows
  (occurring rows).foldl
    (fun total r => (occurring cols).foldl
      (fun total c =>
        let expected : α := ofNat (points.countP (·.1 == r)) * ofNat (points.countP (·.2 == c)) / n
        let observed : α := ofNat (points.countP (· == (r, c)))
        total + square (observed - expected) / expected)
      total)
    0

/-- The strength of a correlation; a constant variable has none. -/
def correlationStrength (x y : List α) : α :=
  match correlation x y with
  | .ok r => Numeric.abs r
  | .error _ => 0

/-- The resampling test on samples of any layout. -/
def runBootstrap {σ : Type} (source : DrawSource σ) (start : σ) (resamples : Nat) :
    Samples α → Except SampleError (TestOutput α)
  | .groups _ samples | .paired _ samples => do
    require samples 2
    let coded := codedValues samples
    bootstrapIndependence source start (coded.map (·.1)) (coded.map (·.2)) resamples codedBetween
  | .bivariate x y => bootstrapIndependence source start x y resamples correlationStrength
  | .contingency _ _ table =>
    let expanded := expandTable table
    bootstrapIndependence source start (expanded.map (·.1)) (expanded.map (·.2)) resamples
      codedChiSquare

/-! ### Tests -/

/-- The two samples of a comparison of two groups. -/
def twoSamples (method : TestMethod) : List (List α) → Except SampleError (List α × List α)
  | [a, b] => .ok (a, b)
  | _ => .error (.degenerate (.unsuited method))

/-- The counts of a table of two rows and two columns. -/
def fourfold (method : TestMethod) : List (List α) → Except SampleError Fourfold
  | [[a, b], [c, d]] => .ok ⟨toNat a, toNat b, toNat c, toNat d⟩
  | _ => .error (.degenerate (.unsuited method))

/-- A test on samples, with the effect size that goes with it.  Samples of a layout that the test
does not take are degenerate for it. -/
def runTest [Tails α] {σ : Type} (source : DrawSource σ) (start : σ) (resamples : Nat)
    (method : TestMethod) (samples : Samples α) : Except SampleError (Execution α) :=
  match method, samples with
  | .studentsT, .groups _ samples => do
    let (a, b) ← twoSamples method samples
    return .ofEffect (← studentsT a b) "cohens_d" (cohensD a b)
  | .welchT, .groups _ samples => do
    let (a, b) ← twoSamples method samples
    return .ofEffect (← welchT a b) "cohens_d" (cohensD a b)
  | .mannWhitneyU, .groups _ samples => do
    let (a, b) ← twoSamples method samples
    let out ← mannWhitneyU a b
    return .ofEffect out "rank_biserial" (rankBiserial out.statistic a.length b.length)
  | .pairedT, .paired _ samples => do
    let (a, b) ← twoSamples method samples
    return .ofEffect (← pairedT a b) "cohens_dz" (cohensDz a b)
  | .wilcoxonSignedRank, .paired _ samples => do
    let (a, b) ← twoSamples method samples
    let out ← wilcoxonSignedRank a b
    let different := (a.zip b).countP fun p => !(p.1 == p.2)
    return .ofEffect out "rank_biserial" (matchedRankBiserial out.statistic different)
  | .oneWayAnova, .groups _ samples => do
    return .ofEffect (← oneWayAnova samples) "eta_squared" (etaSquared samples)
  | .kruskalWallis, .groups _ samples => do
    let out ← kruskalWallis samples
    return .ofEffect out "epsilon_squared" (epsilonSquared out.statistic samples.flatten.length)
  | .friedman, .paired _ samples => do
    let out ← friedman samples
    let n : α := count (samples.headD [])
    return .ofEffect out "kendalls_w" (out.statistic / (n * (count samples - 1)))
  | .pearson, .bivariate x y => do
    let out ← pearson x y
    return .ofEffect out "r" out.statistic
  | .spearman, .bivariate x y => do
    let out ← spearman x y
    return .ofEffect out "rho" out.statistic
  | .kendallTau, .bivariate x y => do
    let out ← kendallTau x y
    return .ofEffect out "tau" out.statistic
  | .chiSquare, .contingency _ _ table => do
    let out ← chiSquareIndependence table
    let v := cramersV out.statistic (sum table.flatten) table.length (columnCount table)
    return .ofEffect out "cramers_v" v
  | .fisherExact, .contingency _ _ table => do
    let out ← fisherExact (← fourfold method table)
    return .ofEffect out "odds_ratio" out.statistic
  | .bootstrap, samples => do
    return ⟨← runBootstrap source start resamples samples, ∅⟩
  | _, _ => .error (.degenerate (.unsuited method))

/-- A test on samples under the given settings.  Random draws come from the stream of the seed, so
that the same settings give the same output. -/
def execute [Tails α] (method : TestMethod) (samples : Samples α) (settings : Settings α) :
    Except (AnalysisError α) (Execution α) :=
  let start := ChaCha.Stream.ofSeed settings.bootstrap.seed.toUInt64
  (runTest ChaCha.source start settings.bootstrap.resamples method samples).mapError
    (.testFailed method)

end StudyAnalysis
