/-
**Resampling.**

The bootstrap draws from the observed values with replacement.  Drawing two aligned samples
independently of each other breaks their pairing and keeps both marginals, which gives a test of
independence for any statistic; drawing one sample gives an interval for its mean.

Main definitions:

* `StudyAnalysis.bootstrapIndependence` — the test of independence;
* `StudyAnalysis.bootstrapMeanInterval` — the percentile interval of a mean.
-/

import StudyAnalysis.Random.Draws
import StudyAnalysis.Statistics.Descriptive
import StudyAnalysis.Statistics.Outcome

set_option autoImplicit false
set_option relaxedAutoImplicit false

namespace StudyAnalysis

open Numeric

variable {α : Type} [Numeric α] {σ : Type}

/-! ### A test of independence -/

/-- The values that a statistic takes on the given number of resamples of two aligned samples. -/
def independentResamples {β γ : Type} (source : DrawSource σ) (statistic : List β → List γ → α)
    (xs : Array β) (ys : Array γ) (hx : 0 < xs.size) (hy : 0 < ys.size) : Nat → σ → List α
  | 0, _ => []
  | k + 1, state =>
    let (pairs, state) := source.samplePairs xs ys hx hy xs.size state
    statistic (pairs.map (·.1)) (pairs.map (·.2))
      :: independentResamples source statistic xs ys hx hy k state

omit [Numeric α] in
theorem length_independentResamples {β γ : Type} (source : DrawSource σ)
    (statistic : List β → List γ → α) (xs : Array β) (ys : Array γ) (hx : 0 < xs.size)
    (hy : 0 < ys.size) (k : Nat) (state : σ) :
    (independentResamples source statistic xs ys hx hy k state).length = k := by
  induction k generalizing state with
  | zero => rfl
  | succ k ih => simp [independentResamples, ih]

/-- The test of independence of two aligned samples by a statistic that grows with their
dependence: the observed arrangement counts as one resample, and the p-value is the share of
resamples whose statistic is at least the observed one. -/
def bootstrapIndependence {β γ : Type} (source : DrawSource σ) (start : σ)
    (x : List β) (y : List γ) (resamples : Nat) (statistic : List β → List γ → α) :
    Except SampleError (TestOutput α) := do
  requireAligned x y
  require x 2
  if resamples = 0 then
    throw (.insufficientData 1 0)
  let observed := statistic x y
  let xs := x.toArray
  let ys := y.toArray
  let values :=
    if h : 0 < xs.size ∧ 0 < ys.size then
      independentResamples source statistic xs ys h.1 h.2 resamples start
    else []
  let extreme := values.countP fun v => observed ≤ v
  return .clamped observed (ofNat (1 + extreme) / ofNat (resamples + 1)) none

/-! ### An interval for the mean -/

/-- The means of the given number of resamples of a sample. -/
def resampledMeans (source : DrawSource σ) (xs : Array α) (h : 0 < xs.size) : Nat → σ → List α
  | 0, _ => []
  | k + 1, state =>
    let (drawn, state) := source.sample xs h xs.size state
    drawn.foldl (· + ·) 0 / ofNat xs.size :: resampledMeans source xs h k state

theorem length_resampledMeans (source : DrawSource σ) (xs : Array α) (h : 0 < xs.size) (k : Nat)
    (state : σ) : (resampledMeans source xs h k state).length = k := by
  induction k generalizing state with
  | zero => rfl
  | succ k ih => simp [resampledMeans, ih]

/-- A mean with the ends of an interval around it. -/
structure MeanInterval (α : Type) where
  estimate : α
  low : α
  high : α

/-- The percentile interval of the mean: the quantiles of the resampled means that leave half of
what the confidence lacks to one on either side. -/
def bootstrapMeanInterval (source : DrawSource σ) (start : σ) (data : List α) (resamples : Nat)
    (confidence : α) : Except SampleError (MeanInterval α) := do
  require data 1
  if resamples = 0 then
    throw (.insufficientData 1 0)
  let xs := data.toArray
  let means := if h : 0 < xs.size then resampledMeans source xs h resamples start else []
  let tail := (1 - clamp 0 1 confidence) / 2
  return ⟨mean data, quantile means tail, quantile means (1 - tail)⟩

end StudyAnalysis
