/-
**Which significance threshold an evaluation uses.**

A design may have a significance threshold of its own, in place of the one of the settings.
Hypotheses are tested under it: their evidence is weighed and their results are judged as if the
settings had been made with the threshold of the design.  A mean is not a hypothesis, and its
interval is taken from the settings as they are, even if a design is given.

Main results:

* `StudyAnalysis.testAlike_of_forDesign_eq` — settings that agree under a design test alike;
* `StudyAnalysis.evaluate_forDesign` — **the threshold of a design is the one of every evaluation
  under it, apart from the interval of a mean**;
* `StudyAnalysis.interval_ignores_design_threshold` — that interval is another one.
-/

import StudyAnalysis.Proofs.Hypothesis.Contexts
import StudyAnalysis.Proofs.Hypothesis.SessionRuns

set_option autoImplicit false
set_option relaxedAutoImplicit false

namespace StudyAnalysis

open Fallible

variable {α : Type}

/-! ### Settings under a design -/

namespace Settings

variable (s : Settings α) (design : Design α)

@[simp] theorem bootstrap_forDesign : (s.forDesign design).bootstrap = s.bootstrap := by
  unfold forDesign
  split <;> rfl

theorem alpha_forDesign : (s.forDesign design).alpha = design.alpha.getD s.alpha := by
  unfold forDesign
  cases design.alpha <;> rfl

@[simp] theorem forDesign_forDesign : (s.forDesign design).forDesign design = s.forDesign design := by
  unfold forDesign
  cases design.alpha <;> rfl

end Settings

/-! ### The threshold of a result -/

section Results

variable [Numeric α]

theorem alpha_makeOneSided (r : TestResult α) (confirmed : Bool) :
    (r.makeOneSided confirmed).alpha = r.alpha := by
  unfold TestResult.makeOneSided
  split <;> rfl

theorem alpha_withPredictions (p : PairProperties α) (predictions : List Prediction)
    (r : TestResult α) : (withPredictions p predictions r).alpha = r.alpha := by
  unfold withPredictions
  dsimp only
  split
  · split
    · exact alpha_makeOneSided _ _
    · rfl
  · rfl

variable [Tails α]

/-- A result is judged by the threshold of the settings under which its comparison was tested. -/
theorem alpha_of_testComparison {settings : Settings α} {declared : Declared}
    {predictions : List Prediction} {p : PairProperties α} {r : TestResult α}
    (h : testComparison settings declared predictions p = .ok r) : r.alpha = settings.alpha := by
  obtain ⟨s, x, -, -, rfl⟩ := testComparison_eq_ok_iff.1 h
  rw [alpha_withPredictions]
  rfl

variable [NumberText α]

/-- A result of a hypothesis is judged by the threshold of the design, if it has one. -/
theorem alpha_of_evaluate {d : Dataset α} {settings : Settings α} {design : Design α}
    {declared : Declared} {e : Expression α} {results : List (TestResult α)}
    (h : evaluate d ⟨settings, some design, declared⟩ e = .ok (.tested results)) :
    ∀ r ∈ results, r.alpha = design.alpha.getD settings.alpha := by
  obtain ⟨kind, operands, predictions, rfl⟩ := (isHypothesis_of_evaluate h).1 ⟨results, rfl⟩
  obtain ⟨_, _, _, hdesign, -, -, -, -, hresults, htested⟩ := evaluate_hypothesis_eq_ok_iff.1 h
  obtain rfl := Option.some.inj hdesign
  obtain rfl := Evaluated.tested.inj htested
  obtain ⟨-, c, -, hresults⟩ := testBindings_eq_ok_iff.1 hresults
  intro r hr
  obtain ⟨p, -, hp⟩ := exists_of_mem_mapM hresults hr
  rw [alpha_of_testComparison hp, Settings.alpha_forDesign]

end Results

/-! ### Evaluation under a design -/

section Evaluation

variable [Numeric α] [Tails α] [NumberText α]

/-- Settings that agree under a design test alike under it, whatever columns are selected. -/
theorem testAlike_of_forDesign_eq {settings settings' : Settings α} {design : Design α}
    (h : settings'.forDesign design = settings.forDesign design) (d : Dataset α)
    (declared : Declared) (names : List String) :
    Context.TestAlike d names ⟨settings, some design, declared⟩
      ⟨settings', some design, declared⟩ where
  bootstrap_eq := by
    have hbootstrap := congrArg Settings.bootstrap h
    rwa [Settings.bootstrap_forDesign, Settings.bootstrap_forDesign] at hbootstrap
  designs := ⟨design, design, rfl, rfl, rfl, fun bindings predictions _ => by rw [h]⟩

/-- **The threshold of a design is the one of every evaluation under it, apart from the interval of a
mean.**  Every expression but a mean has the same value, or fails in the same way, as under settings
that have the threshold of the design, and its results are judged by that threshold.  A mean fails
in the same way, too, and is otherwise estimated from the same values and the same resamples; but the
ends of its interval are those of the threshold of the settings, whatever the design says. -/
theorem evaluate_forDesign (d : Dataset α) (settings : Settings α) (design : Design α)
    (declared : Declared) (e : Expression α) :
    ((∀ operand, e ≠ .mean operand) →
      evaluate d ⟨settings.forDesign design, some design, declared⟩ e =
        evaluate d ⟨settings, some design, declared⟩ e) ∧
    (∀ results, evaluate d ⟨settings, some design, declared⟩ e = .ok (.tested results) →
      ∀ r ∈ results, r.alpha = design.alpha.getD settings.alpha) ∧
    ∀ operand, e = .mean operand → ∃ basis : Except (AnalysisError α) (MeanBasis α),
      evaluate d ⟨settings, some design, declared⟩ e =
        basis.map (fun m => .summary (m.summary settings)) ∧
      evaluate d ⟨settings.forDesign design, some design, declared⟩ e =
        basis.map fun m => .summary (m.summary (settings.forDesign design)) := by
  have halike : Context.TestAlike d e.columnNames ⟨settings, some design, declared⟩
      ⟨settings.forDesign design, some design, declared⟩ :=
    testAlike_of_forDesign_eq (settings.forDesign_forDesign design) d declared e.columnNames
  refine ⟨halike.evaluate_eq (List.Subset.refl _), fun results h => alpha_of_evaluate h, ?_⟩
  rintro operand rfl
  exact halike.exists_basis (List.Subset.refl _)

end Evaluation

/-! ### A mean under a design -/

/-- A study of the doses with a threshold of one half. -/
def boldDesign : Design Float :=
  (Design.observational ["dose"] ["response"]).withAlpha (1 / 2)

/-- Settings with two resamples; the means of the doses in these are one and four. -/
def twoResamples : Settings Float :=
  { (Settings.standard : Settings Float) with bootstrap := ⟨true, 2, 4⟩ }

/-- The hypothesis that the doses are related to the responses is tested at the threshold of the
design, whatever the one of the settings is. -/
theorem evaluate_doses_forDesign : ∃ r,
    evaluate doses ⟨twoResamples, some boldDesign, .nothing⟩ (doseHypothesis []) =
      .ok (.tested [r]) ∧
    evaluate doses ⟨twoResamples.forDesign boldDesign, some boldDesign, .nothing⟩
      (doseHypothesis []) = .ok (.tested [r]) ∧
    r.alpha = 1 / 2 := by
  have hone : ((⟨doses, doseHypothesis [], boldDesign, .nothing⟩ : Inquiry Float).results
      twoResamples).length = 1 := by decide +kernel
  obtain ⟨results, hresults, hlength⟩ : ∃ results,
      evaluate doses ⟨twoResamples, some boldDesign, .nothing⟩ (doseHypothesis []) =
        .ok (.tested results) ∧ results.length = 1 := by
    unfold Inquiry.results at hone
    split at hone
    · rename_i results hvalue
      exact ⟨results, hvalue, hone⟩
    · cases hone
  obtain ⟨r, rfl⟩ := List.length_eq_one_iff.1 hlength
  obtain ⟨hsame, halpha, -⟩ :=
    evaluate_forDesign doses twoResamples boldDesign .nothing (doseHypothesis [])
  have hmean : ∀ operand, doseHypothesis [] ≠ .mean operand := by
    intro operand h
    unfold doseHypothesis at h
    cases h
  exact ⟨r, hresults, (hsame hmean).trans hresults,
    halpha _ hresults r (List.mem_singleton_self r)⟩

/-- The means of the two resamples of the doses. -/
def doseMeans : List Float :=
  resampledMeans ChaCha.source #[0, 1, 10] (by decide) 2 (ChaCha.Stream.ofSeed 4)

theorem sorted_doseMeans : Numeric.sorted doseMeans = doseMeans := by
  have hpairwise : doseMeans.Pairwise fun a b => Numeric.totalLe a b = true := by decide +kernel
  exact List.mergeSort_of_pairwise hpairwise

/-- The interval of the mean dose is the one of the settings, which is wider than the one of the
design. -/
theorem interval_ignores_design_threshold :
    let value settings := evaluate doses ⟨settings, some boldDesign, .nothing⟩
      (.mean (.column "dose"))
    twoResamples.validate = .ok () ∧ boldDesign.validate = .ok () ∧
      ∃ s s' low high low' high', value twoResamples = .ok (.summary s) ∧
        value (twoResamples.forDesign boldDesign) = .ok (.summary s') ∧
        s.interval = some (low, high) ∧ s'.interval = some (low', high') ∧
        low < low' ∧ high' < high ∧
        value twoResamples ≠ value (twoResamples.forDesign boldDesign) := by
  intro value
  have hvalue : ∀ settings, settings.bootstrap = twoResamples.bootstrap → value settings =
      .ok (.summary ((MeanBasis.mk "dose" [0, 1, 10] doseMeans).summary settings)) := by
    intro settings h
    show evaluate doses _ _ = _
    rw [evaluate_mean_eq, h]
    rfl
  -- the quantiles are decided once the resampled means are known to be sorted
  have hlow : (intervalEnds doseMeans twoResamples.alpha).1 <
      (intervalEnds doseMeans (twoResamples.forDesign boldDesign).alpha).1 := by
    simp only [intervalEnds, quantile, quantile?, sorted_doseMeans]
    decide +kernel
  have hhigh : (intervalEnds doseMeans (twoResamples.forDesign boldDesign).alpha).2 <
      (intervalEnds doseMeans twoResamples.alpha).2 := by
    simp only [intervalEnds, quantile, quantile?, sorted_doseMeans]
    decide +kernel
  have hvalid : twoResamples.validate = .ok () := by
    have hthreshold : isThreshold twoResamples.alpha = true := by decide +kernel
    rw [Settings.validate, hthreshold]
    rfl
  refine ⟨hvalid, rfl, _, _, _, _, _, _, hvalue _ rfl, hvalue _ rfl, rfl, rfl, hlow, hhigh, ?_⟩
  intro hsame
  rw [hvalue twoResamples rfl, hvalue (twoResamples.forDesign boldDesign) rfl] at hsame
  have hends := Option.some.inj (congrArg Summary.interval (Evaluated.summary.inj
    (Except.ok.inj hsame)))
  rw [hends] at hlow
  exact SignFaithful.lt_asymm hlow hlow

end StudyAnalysis
