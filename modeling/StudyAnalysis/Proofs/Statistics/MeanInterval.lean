/-
**The percentile interval of a mean.**

A resample is drawn from the sample with replacement, so its mean stays within the bounds of the
sample, however the draws come about.  The ends of the interval are two quantiles of these means, at
levels that are symmetric about one half and that move apart as the confidence grows.  So the
interval stays within the bounds of the sample, and for the same draws it grows with the confidence.
A confidence outside of the unit interval is that of the nearer end: it gives the median of the
resampled means, or all of their range.

Main definitions:

* `StudyAnalysis.Exact.tailLevel` — what a confidence leaves below the interval;
* `StudyAnalysis.Exact.percentileInterval` — the interval of a confidence.

Main results:

* `StudyAnalysis.Exact.forall_mem_resampledMeans` — what holds of every resampled mean;
* `StudyAnalysis.Exact.bootstrapMeanInterval_eq` — the interval in closed form;
* `StudyAnalysis.Exact.bootstrapMeanInterval_nested` — **the interval is within the bounds of the
  sample and grows with the confidence**.
-/

import StudyAnalysis.Proofs.Fallible
import StudyAnalysis.Proofs.Statistics.Quantiles
import StudyAnalysis.Statistics.Resampling

set_option autoImplicit false
set_option relaxedAutoImplicit false

namespace StudyAnalysis.Exact

open Numeric Fallible

variable {σ : Type} (source : DrawSource σ)

/-! ### Resampled means -/

/-- What is drawn from a sample belongs to it. -/
theorem mem_of_mem_sample {β : Type} {xs : Array β} (h : 0 < xs.size) {k : ℕ} {state : σ} {v : β}
    (hv : v ∈ (source.sample xs h k state).1) : v ∈ xs := by
  induction k generalizing state with
  | zero => cases hv
  | succ k ih =>
      obtain rfl | hv := List.mem_cons.1 hv
      · exact Array.getElem_mem _
      · exact ih hv

/-- One resample more has the mean of what is drawn for it. -/
theorem resampledMeans_succ {xs : Array ℝ} (h : 0 < xs.size) (k : ℕ) (state : σ) :
    resampledMeans source xs h (k + 1) state =
      mean (source.sample xs h xs.size state).1 ::
        resampledMeans source xs h k (source.sample xs h xs.size state).2 := by
  have hsum := foldl_add_eq id (source.sample xs h xs.size state).1 0
  rw [List.map_id, zero_add] at hsum
  rw [resampledMeans, numeral_zero, mean_eq, DrawSource.length_sample]
  exact congrArg (fun total => total / (xs.size : ℝ) :: _) hsum

/-- **What holds of the mean of every list that is drawn holds of every resampled mean.** -/
theorem forall_mem_resampledMeans {p : ℝ → Prop} {xs : Array ℝ} (h : 0 < xs.size)
    (hp : ∀ drawn : List ℝ, drawn ≠ [] → (∀ v ∈ drawn, v ∈ xs) → p (mean drawn)) (k : ℕ)
    (state : σ) : ∀ m ∈ resampledMeans source xs h k state, p m := by
  induction k generalizing state with
  | zero => exact List.forall_mem_nil _
  | succ k ih =>
      have hdrawn : (source.sample xs h xs.size state).1 ≠ [] := by
        refine List.ne_nil_of_length_pos ?_
        rwa [DrawSource.length_sample]
      rw [resampledMeans_succ, List.forall_mem_cons]
      exact ⟨hp _ hdrawn fun v hv => mem_of_mem_sample source h hv, ih _⟩

/-! ### The interval -/

/-- What a confidence leaves below the interval, and as much above it. -/
noncomputable def tailLevel (confidence : ℝ) : ℝ :=
  (1 - clamp 0 1 confidence) / 2

theorem tailLevel_le (confidence : ℝ) : tailLevel confidence ≤ 1 - tailLevel confidence := by
  have h0 := (clamp_mem_Icc confidence).1
  rw [tailLevel]
  linarith

/-- The tails get shorter as the confidence grows. -/
theorem tailLevel_anti {c c' : ℝ} (h : c ≤ c') : tailLevel c' ≤ tailLevel c := by
  have hclamp := clamp_mono h
  rw [tailLevel, tailLevel]
  linarith

/-- The interval of a confidence, from the means of the resamples. -/
noncomputable def percentileInterval (data means : List ℝ) (confidence : ℝ) : MeanInterval ℝ :=
  ⟨mean data, quantile means (tailLevel confidence), quantile means (1 - tailLevel confidence)⟩

variable {data : List ℝ}

theorem bootstrapMeanInterval_eq (start : σ) (h : 0 < data.length) {resamples : ℕ}
    (hresamples : 1 ≤ resamples) (confidence : ℝ) :
    bootstrapMeanInterval source start data resamples confidence =
      .ok (percentileInterval data (resampledMeans source data.toArray h resamples start)
        confidence) := by
  rw [bootstrapMeanInterval, (require_eq_ok_iff data 1).2 h, ok_bind,
    if_neg (Nat.one_le_iff_ne_zero.1 hresamples)]
  have hsize : 0 < data.toArray.size := h
  simp only [hsize, dif_pos, numeral_zero, numeral_one, percentileInterval, tailLevel]
  rfl

/-- **The interval is within the bounds of the sample, and for the same draws it grows with the
confidence.** -/
theorem bootstrapMeanInterval_nested (start : σ) (hne : data ≠ []) {resamples : ℕ}
    (hresamples : 1 ≤ resamples) :
    ∃ interval : ℝ → MeanInterval ℝ,
      (∀ c, bootstrapMeanInterval source start data resamples c = .ok (interval c)) ∧
      (∀ c, (interval c).estimate = mean data ∧ data.min hne ≤ (interval c).low ∧
        (interval c).low ≤ (interval c).high ∧ (interval c).high ≤ data.max hne) ∧
      ∀ c c', c ≤ c' →
        (interval c').low ≤ (interval c).low ∧ (interval c).high ≤ (interval c').high := by
  have hlength : 0 < data.length := List.length_pos_iff.2 hne
  let means := resampledMeans source data.toArray hlength resamples start
  have hmeans : means ≠ [] := by
    refine List.ne_nil_of_length_pos ?_
    rwa [length_resampledMeans]
  have hbounds : ∀ x ∈ data, x ∈ Set.Icc (data.min hne) (data.max hne) :=
    fun x hx => ⟨List.min_le_of_mem hx, List.le_max_of_mem hx⟩
  have hwithin : ∀ m ∈ means, m ∈ Set.Icc (data.min hne) (data.max hne) :=
    forall_mem_resampledMeans source hlength (fun drawn hdrawn hmem =>
      mean_mem_Icc hdrawn fun v hv => hbounds v (List.mem_toArray.1 (hmem v hv))) resamples start
  refine ⟨percentileInterval data means, bootstrapMeanInterval_eq source start hlength hresamples,
    fun c => ⟨rfl, ?_, ?_, ?_⟩, fun c c' hc => ⟨?_, ?_⟩⟩
  · exact (quantile_mem_Icc hmeans hwithin _).1
  · exact quantile_mono hmeans (tailLevel_le c)
  · exact (quantile_mem_Icc hmeans hwithin _).2
  · exact quantile_mono hmeans (tailLevel_anti hc)
  · exact quantile_mono hmeans (sub_le_sub_left (tailLevel_anti hc) 1)

/-- Two resamples of two values, which draw one of them twice each, at the confidences zero and
one. -/
theorem bootstrapMeanInterval_of_two :
    let source := DrawSource.ofSequence fun i n h => ⟨i / 2 % n, Nat.mod_lt _ h⟩
    ∃ narrow wide : MeanInterval ℝ,
      bootstrapMeanInterval source 0 [1, 3] 2 0 = .ok narrow ∧
      bootstrapMeanInterval source 0 [1, 3] 2 1 = .ok wide ∧
      1 ≤ wide.low ∧ wide.low ≤ narrow.low ∧ narrow.low ≤ narrow.high ∧
      narrow.high ≤ wide.high ∧ wide.high ≤ 3 := by
  intro source
  obtain ⟨interval, hinterval, hwithin, hnested⟩ :=
    bootstrapMeanInterval_nested source 0 (List.cons_ne_nil (1 : ℝ) [3]) (le_of_lt one_lt_two)
  obtain ⟨hlow, hhigh⟩ := hnested 0 1 zero_le_one
  obtain ⟨-, hmin, -, hmax⟩ := hwithin 1
  refine ⟨interval 0, interval 1, hinterval 0, hinterval 1, ?_, hlow, (hwithin 0).2.2.1, hhigh, ?_⟩
  · simpa [List.min_cons_cons_nil] using hmin
  · simpa [List.max_cons_cons_nil] using hmax

end StudyAnalysis.Exact
