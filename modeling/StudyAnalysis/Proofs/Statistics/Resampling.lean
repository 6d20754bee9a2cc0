/-
**Resampled statistics.**

A resample is drawn by positions, so that it does not depend on what stands at them: from the images
of some elements the images of the same elements are drawn.  What holds of a statistic on all
aligned lists holds of it on every resample, however the draws come about.  The p-value counts the
resamples that are at least as extreme as the observed arrangement, which counts as one of them.

Main definitions:

* `StudyAnalysis.Exact.resampled` — the values of a statistic on the resamples of two lists;
* `StudyAnalysis.Exact.bootstrapOutput` — what the test of independence answers.

Main results:

* `StudyAnalysis.Exact.samplePairs_map`, `StudyAnalysis.Exact.resampled_map` — **the images of the
  same elements are drawn**;
* `StudyAnalysis.Exact.forall_mem_resampled` — what holds of every resample;
* `StudyAnalysis.Exact.bootstrapIndependence_eq`,
  `StudyAnalysis.Exact.bootstrapIndependence_eq_ok_iff` — the test of independence in closed form;
* `StudyAnalysis.Exact.bootstrapOutput_pValue` — **the p-value is a share of the resamples**.
-/

import StudyAnalysis.Proofs.Fallible
import StudyAnalysis.Proofs.Statistics.Descriptive
import StudyAnalysis.Statistics.Resampling

set_option autoImplicit false
set_option relaxedAutoImplicit false

namespace StudyAnalysis.Exact

open Numeric Fallible

/-! ### Draws -/

section Draws

variable {α α' β β' γ γ' σ : Type} (source : DrawSource σ)

/-- A draw depends on the number of elements only. -/
theorem draw_congr (state : σ) {m n : ℕ} (hm : 0 < m) (hn : 0 < n) (h : m = n) :
    (source.draw state m hm).1.val = (source.draw state n hn).1.val ∧
      (source.draw state m hm).2 = (source.draw state n hn).2 := by
  subst h
  exact ⟨rfl, rfl⟩

/-- **The same elements are drawn from mapped values.** -/
theorem samplePairs_map (f : β → β') (g : γ → γ') {xs : Array β} {ys : Array γ} {xs' : Array β'}
    {ys' : Array γ'} (hx : 0 < xs.size) (hy : 0 < ys.size) (hxs : xs' = xs.map f)
    (hys : ys' = ys.map g) (hx' : 0 < xs'.size) (hy' : 0 < ys'.size) (n : ℕ) (state : σ) :
    source.samplePairs xs' ys' hx' hy' n state =
      ((source.samplePairs xs ys hx hy n state).1.map (Prod.map f g),
        (source.samplePairs xs ys hx hy n state).2) := by
  subst hxs hys
  induction n generalizing state with
  | zero => rfl
  | succ n ih =>
      obtain ⟨hi, hstate⟩ := draw_congr source state hx' hx Array.size_map
      obtain ⟨hj, hstate'⟩ :=
        draw_congr source (source.draw state xs.size hx).2 hy' hy Array.size_map
      rw [DrawSource.samplePairs, DrawSource.samplePairs]
      dsimp only
      rw [hstate, hstate', ih, List.map_cons]
      simp only [Fin.getElem_fin, hi, hj, Array.getElem_map, Prod.map_apply]

variable {statistic : List β → List γ → α} {statistic' : List β' → List γ' → α'} {f : β → β'}
  {g : γ → γ'} {h : α → α'}

theorem independentResamples_map
    (hstatistic : ∀ x y, x.length = y.length → statistic' (x.map f) (y.map g) = h (statistic x y))
    {xs : Array β} {ys : Array γ} {xs' : Array β'} {ys' : Array γ'} (hx : 0 < xs.size)
    (hy : 0 < ys.size) (hxs : xs' = xs.map f) (hys : ys' = ys.map g) (hx' : 0 < xs'.size)
    (hy' : 0 < ys'.size) (n : ℕ) (state : σ) :
    independentResamples source statistic' xs' ys' hx' hy' n state =
      (independentResamples source statistic xs ys hx hy n state).map h := by
  have hsize : xs'.size = xs.size := by rw [hxs, Array.size_map]
  induction n generalizing state with
  | zero => rfl
  | succ n ih =>
      rw [independentResamples, independentResamples]
      dsimp only
      rw [hsize, samplePairs_map source f g hx hy hxs hys hx' hy', ih, List.map_cons]
      dsimp only
      rw [← hstatistic _ _ (by rw [List.length_map, List.length_map])]
      simp only [List.map_map]
      rfl

/-- The values of a statistic on the resamples of two lists, of which there are none if one of the
lists is empty. -/
def resampled (start : σ) (x : List β) (y : List γ) (resamples : ℕ)
    (statistic : List β → List γ → α) : List α :=
  if h : 0 < x.length ∧ 0 < y.length then
    independentResamples source statistic x.toArray y.toArray h.1 h.2 resamples start
  else []

/-- **A statistic of mapped values is resampled from the same draws.** -/
theorem resampled_map
    (hstatistic : ∀ x y, x.length = y.length → statistic' (x.map f) (y.map g) = h (statistic x y))
    (start : σ) (x : List β) (y : List γ) (resamples : ℕ) :
    resampled source start (x.map f) (y.map g) resamples statistic' =
      (resampled source start x y resamples statistic).map h := by
  by_cases hpos : 0 < x.length ∧ 0 < y.length
  · have hpos' : 0 < (x.map f).length ∧ 0 < (y.map g).length := by
      rwa [List.length_map, List.length_map]
    rw [resampled, resampled, dif_pos hpos, dif_pos hpos']
    exact independentResamples_map source hstatistic hpos.1 hpos.2 List.map_toArray.symm
      List.map_toArray.symm hpos'.1 hpos'.2 resamples start
  · have hpos' : ¬ (0 < (x.map f).length ∧ 0 < (y.map g).length) := by
      rwa [List.length_map, List.length_map]
    rw [resampled, resampled, dif_neg hpos, dif_neg hpos', List.map_nil]

theorem length_resampled {x : List β} {y : List γ} (hx : 0 < x.length) (hy : 0 < y.length)
    (start : σ) (resamples : ℕ) :
    (resampled source start x y resamples statistic).length = resamples := by
  rw [resampled, dif_pos ⟨hx, hy⟩, length_independentResamples]

/-- **What holds of a statistic of aligned lists holds of it on every resample.** -/
theorem forall_mem_resampled {p : α → Prop}
    (hp : ∀ x y, x.length = y.length → p (statistic x y)) (start : σ) (x : List β) (y : List γ)
    (resamples : ℕ) : ∀ v ∈ resampled source start x y resamples statistic, p v := by
  rw [resampled]
  split
  · rename_i hpos
    induction resamples generalizing start with
    | zero => simp [independentResamples]
    | succ n ih =>
        rw [independentResamples, List.forall_mem_cons]
        exact ⟨hp _ _ (by rw [List.length_map, List.length_map]), ih _⟩
  · exact List.forall_mem_nil _

end Draws

/-! ### The test of independence -/

section Independence

variable {α β γ σ : Type} [Numeric α] {source : DrawSource σ} {start : σ} {x : List β} {y : List γ}
  {resamples : ℕ} {statistic : List β → List γ → α}

/-- What the test of independence answers for an observed statistic and those of the resamples. -/
def bootstrapOutput (observed : α) (values : List α) (resamples : ℕ) : TestOutput α :=
  .clamped observed
    (ofNat (1 + values.countP fun v => observed ≤ v) / ofNat (resamples + 1)) none

variable (source start x y resamples statistic)

theorem bootstrapIndependence_eq :
    bootstrapIndependence source start x y resamples statistic = do
      requireAligned x y
      require x 2
      if resamples = 0 then throw (.insufficientData 1 0)
      return bootstrapOutput (statistic x y) (resampled source start x y resamples statistic)
        resamples :=
  rfl

variable {source start x y resamples statistic}

/-- The test answers for aligned lists of at least two elements. -/
theorem bootstrapIndependence_eq_ok_iff {out : TestOutput α} :
    bootstrapIndependence source start x y resamples statistic = .ok out ↔
      (x.length = y.length ∧ 2 ≤ x.length ∧ resamples ≠ 0) ∧
        out = bootstrapOutput (statistic x y) (resampled source start x y resamples statistic)
          resamples := by
  rw [bootstrapIndependence_eq]
  constructor
  · intro h
    obtain ⟨_, haligned, h⟩ := bind_eq_ok_iff.1 h
    obtain ⟨_, hlength, h⟩ := bind_eq_ok_iff.1 h
    split at h
    · cases h
    · rename_i hresamples
      exact ⟨⟨(requireAligned_eq_ok_iff x y).1 haligned, (require_eq_ok_iff x 2).1 hlength,
        hresamples⟩, (Except.ok.inj h).symm⟩
  · rintro ⟨⟨haligned, hlength, hresamples⟩, rfl⟩
    rw [(requireAligned_eq_ok_iff x y).2 haligned, (require_eq_ok_iff x 2).2 hlength, ok_bind,
      ok_bind, if_neg hresamples]
    rfl

end Independence

/-! ### P-values in exact arithmetic -/

section PValues

variable {observed : ℝ} {values : List ℝ} {resamples : ℕ}

/-- **The p-value is a share of the resamples**, of which the observed arrangement is one. -/
theorem bootstrapOutput_pValue (h : values.length = resamples) :
    (bootstrapOutput observed values resamples).pValue =
      (1 + values.countP fun v => decide (observed ≤ v)) / (resamples + 1) := by
  have hle : values.countP (fun v => decide (observed ≤ v)) ≤ resamples :=
    h ▸ List.countP_le_length
  have hle' : ((values.countP fun v => decide (observed ≤ v) : ℕ) : ℝ) ≤ resamples :=
    Nat.cast_le.2 hle
  have hshare : (1 + values.countP fun v => decide (observed ≤ v) : ℝ) / (resamples + 1) ≤ 1 := by
    rw [div_le_one (by positivity)]
    linarith
  rw [bootstrapOutput, TestOutput.clamped, numeral_zero, numeral_one]
  simp only [ofNat_eq]
  push_cast
  exact clamp_eq_self (by positivity) hshare

end PValues

end StudyAnalysis.Exact
