/-
**Predictions change the sidedness of results and nothing else.**

A hypothesis is tested once with predictions and once without any.  Both runs make the same
comparisons, and what they share is known: a result under predictions is the two-sided result with
the predictions put into it.  All comparisons of a hypothesis get the same list of predictions,
though they may be of different kinds.  Only a single prediction is used, and only in the comparisons
that it is about: two groups which both names belong to, or a correlation that has a coefficient.

Main definitions:

* `StudyAnalysis.PairProperties.Applies` — a prediction is about a comparison;
* `StudyAnalysis.DiffersInSidedness` — the result under predictions beside the one without any.

Main results:

* `StudyAnalysis.applies_iff_exists_weighs` — a prediction applies if there are two numbers that it
  can be judged by;
* `StudyAnalysis.differsInSidedness_withPredictions` — predictions in a two-sided result;
* `StudyAnalysis.evaluate_predictions_change_sidedness` — **the evaluations with and without
  predictions**.
-/

import StudyAnalysis.Proofs.Hypothesis.OpposedPredictions
import StudyAnalysis.Proofs.Hypothesis.ResultChanges

set_option autoImplicit false
set_option relaxedAutoImplicit false

namespace StudyAnalysis

open Fallible TestResult

variable {α : Type} [Numeric α]

/-! ### Predictions that apply -/

section Applies

variable {p : PairProperties α} {prediction : Prediction} {label : String}

/-- A label names one of the groups of a comparison. -/
def PairProperties.HasGroup (p : PairProperties α) (label : String) : Prop :=
  ∃ labels groups, p.samples.groups? = some (labels, groups) ∧ label ∈ labels

/-- A prediction is about a comparison: one about an order is about two groups if both names are
theirs, and one about a direction is about a correlation that has a coefficient. -/
def PairProperties.Applies (p : PairProperties α) : Prediction → Prop
  | .groupOrder greater lesser =>
    (∃ paired, p.shape = .groupComparison 2 paired) ∧ p.HasGroup greater ∧ p.HasGroup lesser
  | .positive | .negative =>
    p.shape = .correlation ∧ ∃ x y c, p.samples = .bivariate x y ∧ correlation x y = .ok c

omit [Numeric α] in
/-- Every group of a comparison has a sample. -/
theorem hasGroup_iff_exists_sample (hfits : p.samples.Fits p.shape) :
    p.HasGroup label ↔ ∃ a, p.samples.sampleOf? label = some a := by
  simp only [PairProperties.HasGroup, Samples.sampleOf?, Option.bind_eq_bind,
    Option.bind_eq_some_iff, Prod.exists]
  constructor
  · rintro ⟨labels, groups, hgroups, hmem⟩
    obtain ⟨i, hi⟩ := Option.isSome_iff_exists.1 (List.isSome_idxOf?.2 hmem)
    obtain ⟨hlt, -⟩ := List.idxOf?_eq_some_iff.1 hi
    rw [← hfits.length_eq hgroups] at hlt
    exact ⟨_, labels, groups, hgroups, i, hi, List.getElem?_eq_getElem hlt⟩
  · rintro ⟨a, labels, groups, hgroups, i, hi, -⟩
    exact ⟨labels, groups, hgroups, List.isSome_idxOf?.1 (Option.isSome_of_eq_some hi)⟩

/-- **A prediction applies exactly if there are two numbers that it can be judged by.** -/
theorem applies_iff_exists_weighs (hfits : p.samples.Fits p.shape) :
    p.Applies prediction ↔ ∃ low high, p.Weighs prediction low high := by
  cases prediction with
  | groupOrder greater lesser =>
      rw [PairProperties.Applies, hasGroup_iff_exists_sample hfits,
        hasGroup_iff_exists_sample hfits]
      constructor
      · rintro ⟨⟨paired, hshape⟩, ⟨a, ha⟩, b, hb⟩
        exact ⟨_, _, .groupOrder hshape ha hb⟩
      · rintro ⟨_, _, ⟨hshape, ha, hb⟩⟩
        exact ⟨⟨_, hshape⟩, ⟨_, ha⟩, _, hb⟩
  | positive =>
      constructor
      · rintro ⟨hshape, x, y, c, hsamples, hc⟩
        exact ⟨_, _, .positive hshape hsamples hc⟩
      · rintro ⟨_, _, _ | ⟨hshape, hsamples, hc⟩⟩
        exact ⟨hshape, _, _, _, hsamples, hc⟩
  | negative =>
      constructor
      · rintro ⟨hshape, x, y, c, hsamples, hc⟩
        exact ⟨_, _, .negative hshape hsamples hc⟩
      · rintro ⟨_, _, _ | _ | ⟨hshape, hsamples, hc⟩⟩
        exact ⟨hshape, _, _, _, hsamples, hc⟩

theorem confirmed?_eq_none_of_not_applies (hfits : p.samples.Fits p.shape)
    (h : ¬ p.Applies prediction) : confirmed? p prediction = none := by
  rw [← Option.not_isSome_iff_eq_none, Option.isSome_iff_exists]
  rintro ⟨confirmed, hconfirmed⟩
  obtain ⟨low, high, hweighs, -⟩ := confirmed?_eq_some_iff.1 hconfirmed
  exact h ((applies_iff_exists_weighs hfits).2 ⟨low, high, hweighs⟩)

end Applies

/-! ### Results with and without predictions -/

section Results

variable {p : PairProperties α} {predictions : List Prediction} {prediction : Prediction}
  {u : TestResult α}

/-- The result of a comparison under predictions beside the one without any: it is the same but for
the predictions, the p-value and the sidedness. -/
structure DiffersInSidedness (predictions : List Prediction) (p : PairProperties α)
    (u r : TestResult α) : Prop where
  unpredicted : u.predictions = [] ∧ u.oneSided = false
  kept : r = { u with predictions := predictions, pValue := r.pValue, oneSided := r.oneSided }
  /-- Only a single prediction counts, and only where it applies. -/
  unaffected : (∀ prediction, predictions = [prediction] → ¬ p.Applies prediction) →
    r.pValue = u.pValue ∧ r.oneSided = false
  /-- Where it applies, the p-value is halved if the two numbers that the prediction is judged by
  are in the predicted order. -/
  affected : ∀ prediction, predictions = [prediction] → p.Applies prediction →
    r.oneSided = true ∧ ∃ low high, p.Weighs prediction low high ∧
      r.pValue = if low < high then u.pValue / 2 else 1 - u.pValue / 2
  probability : IsProbability u.pValue → IsProbability r.pValue

namespace DiffersInSidedness

variable {r : TestResult α}

/-- A result is one-sided exactly if there is a single prediction and it applies. -/
theorem oneSided_iff (h : DiffersInSidedness predictions p u r) :
    r.oneSided = true ↔ ∃ prediction, predictions = [prediction] ∧ p.Applies prediction := by
  constructor
  · intro hone
    by_contra hnone
    have htwo := (h.unaffected fun prediction heq happlies => hnone ⟨prediction, heq, happlies⟩).2
    exact Bool.false_ne_true (htwo.symm.trans hone)
  · rintro ⟨prediction, heq, happlies⟩
    exact (h.affected prediction heq happlies).1

theorem pValue_of_oneSided (h : DiffersInSidedness predictions p u r) (hone : r.oneSided = true) :
    r.pValue = u.pValue / 2 ∨ r.pValue = 1 - u.pValue / 2 := by
  obtain ⟨prediction, heq, happlies⟩ := h.oneSided_iff.1 hone
  obtain ⟨-, low, high, -, hpValue⟩ := h.affected prediction heq happlies
  rw [hpValue]
  exact ite_eq_or_eq _ _ _

/-- A result that stays two-sided only has the predictions written down. -/
theorem eq_of_twoSided (h : DiffersInSidedness predictions p u r) (htwo : r.oneSided = false) :
    r = { u with predictions := predictions } := by
  have hnone : ∀ prediction, predictions = [prediction] → ¬ p.Applies prediction := by
    intro prediction heq happlies
    exact Bool.false_ne_true (htwo.symm.trans (h.oneSided_iff.2 ⟨prediction, heq, happlies⟩))
  obtain ⟨hpValue, -⟩ := h.unaffected hnone
  rw [h.kept, hpValue, htwo, ← h.unpredicted.2]

end DiffersInSidedness

/-- Predictions that do not apply are only written down. -/
theorem withPredictions_of_unconfirmed
    (h : ∀ prediction, predictions = [prediction] → confirmed? p prediction = none) :
    withPredictions p predictions u = { u with predictions := predictions } := by
  match predictions with
  | [prediction] => rw [withPredictions_singleton, h prediction rfl]
  | [] | _ :: _ :: _ => rfl

/-- A single prediction that applies takes the p-value towards itself. -/
theorem withPredictions_of_confirmed {confirmed : Bool} (htwo : u.oneSided = false)
    (h : confirmed? p prediction = some confirmed) :
    withPredictions p [prediction] u =
      { u with
        predictions := [prediction], pValue := towards u.pValue confirmed, oneSided := true } := by
  rw [withPredictions_singleton, h]
  dsimp only
  rw [makeOneSided, htwo]
  rfl

/-- **What predictions make of a two-sided result.** -/
theorem differsInSidedness_withPredictions [ProbabilityFaithful α] (hfits : p.samples.Fits p.shape)
    (hpredictions : u.predictions = []) (htwo : u.oneSided = false) :
    DiffersInSidedness predictions p u (withPredictions p predictions u) := by
  by_cases happlies : ∃ prediction, predictions = [prediction] ∧ p.Applies prediction
  · obtain ⟨prediction, rfl, hprediction⟩ := happlies
    obtain ⟨low, high, hweighs⟩ := (applies_iff_exists_weighs hfits).1 hprediction
    rw [withPredictions_of_confirmed htwo hweighs.confirmed?_eq]
    refine ⟨⟨hpredictions, htwo⟩, rfl, fun h => absurd hprediction (h _ rfl), ?_,
      fun h => isProbability_towards h _⟩
    intro prediction' heq _
    obtain rfl := List.singleton_inj.1 heq
    refine ⟨rfl, low, high, hweighs, ?_⟩
    rw [towards]
    exact if_congr (decide_eq_true_iff) rfl rfl
  · have hnone : ∀ prediction, predictions = [prediction] → ¬ p.Applies prediction :=
      fun prediction heq h => happlies ⟨prediction, heq, h⟩
    rw [withPredictions_of_unconfirmed fun prediction heq =>
      confirmed?_eq_none_of_not_applies hfits (hnone prediction heq)]
    exact ⟨⟨hpredictions, htwo⟩, rfl, fun _ => ⟨rfl, htwo⟩,
      fun prediction heq h => absurd h (hnone prediction heq), id⟩

end Results

/-! ### Two evaluations -/

section Evaluations

variable [Tails α] [NumberText α] {d : Dataset α} {ctx : Context α}
  {operands : List (Expression α)} {kind : HypothesisKind} {predictions : List Prediction}
  {x : Evaluated α}

/-- **The evaluations with and without predictions.**  If a hypothesis can be evaluated with some
predictions, it can be without any, and it makes the same comparisons.  The two results of each
comparison are the same but for the predictions, the p-value and the sidedness.  The p-value is the
same too unless there is exactly one prediction and the comparison is one that it is about; then it
is half of the other one or what that half lacks to one.  What was in the unit interval stays
there. -/
theorem evaluate_predictions_change_sidedness [ProbabilityFaithful α]
    (h : evaluate d ctx (.hypothesis kind operands predictions) = .ok x) :
    ∃ (tested : List (PairProperties α × TestResult α)) (results : List (TestResult α)),
      x = .tested results ∧ Compares d ctx operands (tested.map (·.1)) ∧
      evaluate d ctx (.hypothesis kind operands []) = .ok (.tested (tested.map (·.2))) ∧
      List.Forall₂ (fun q r => DiffersInSidedness predictions q.1 q.2 r) tested results := by
  obtain ⟨tested, hcompares, htwoSided, rfl, hall⟩ := exists_twoSided_of_evaluate h
  refine ⟨tested, _, rfl, hcompares, htwoSided, ?_⟩
  rw [List.forall₂_map_right_iff, List.forall₂_same]
  intro q hq
  obtain ⟨hfits, settings, hresult⟩ := hall q hq
  obtain ⟨s, x, -, -, hnew⟩ := testComparison_eq_ok_iff.1 hresult
  exact differsInSidedness_withPredictions hfits (by rw [← hnew]; rfl) (by rw [← hnew]; rfl)

end Evaluations

/-! ### A factor and a dose -/

/-- A trial with two arms and with doses of three levels. -/
def dosedTrial : Dataset Float where
  columns := .ofList [
    ("arm", ⟨⟨"arm", .nominal, some ["drug", "placebo"]⟩,
      [.text "drug", .text "drug", .text "placebo", .text "placebo"]⟩),
    ("dose", ⟨⟨"dose", .ordinal, some ["low", "middle", "high"]⟩,
      [.text "low", .text "high", .text "middle", .text "middle"]⟩),
    ("score", ⟨⟨"score", .ordinal, some ["bad", "fair", "good"]⟩,
      [.text "good", .text "good", .text "fair", .text "bad"]⟩)]
  rowCount := 4
  key := none

/-- The study in which the scores depend on the arms and on the doses. -/
def dosedStudy : Context Float :=
  ⟨.standard, some (.observational ["arm", "dose"] ["score"]),
    ⟨.ofList [.normalDistribution, .equalVariances], ∅⟩⟩

/-- Whether there are two results, and the sidedness of both. -/
def haveSides (first second : Bool) (x : Except (AnalysisError Float) (Evaluated Float)) : Bool :=
  match x with
  | .ok (.tested [r, r']) => r.oneSided == first && r'.oneSided == second
  | _ => false

theorem exists_of_haveSides {first second : Bool}
    {x : Except (AnalysisError Float) (Evaluated Float)} (h : haveSides first second x = true) :
    ∃ r r', x = .ok (.tested [r, r']) ∧ r.oneSided = first ∧ r'.oneSided = second := by
  unfold haveSides at h
  split at h
  · rename_i r r'
    rw [Bool.and_eq_true, beq_iff_eq, beq_iff_eq] at h
    exact ⟨r, r', rfl, h⟩
  · cases h

/-- The order of the arms is only predicted for the comparison of the arms: the result about the
doses has the p-value that it has without any prediction. -/
theorem evaluate_dosedTrial_changes_sidedness :
    let hypothesis predictions := evaluate dosedTrial dosedStudy
      (.hypothesis .compare [.column "arm", .column "dose", .column "score"] predictions)
    ∃ u u' r r', hypothesis [.groupOrder "drug" "placebo"] = .ok (.tested [r, r']) ∧
      hypothesis [] = .ok (.tested [u, u']) ∧ u.oneSided = false ∧ r.oneSided = true ∧
      r = { u with
        predictions := [.groupOrder "drug" "placebo"], pValue := r.pValue, oneSided := true } ∧
      (r.pValue = u.pValue / 2 ∨ r.pValue = 1 - u.pValue / 2) ∧
      r' = { u' with predictions := [.groupOrder "drug" "placebo"] } := by
  intro hypothesis
  have hsides : haveSides true false (hypothesis [.groupOrder "drug" "placebo"]) = true := by
    decide +kernel
  obtain ⟨r, r', hr, hone, htwo⟩ := exists_of_haveSides hsides
  obtain ⟨tested, results, hresults, -, hplain, hall⟩ := evaluate_predictions_change_sidedness hr
  obtain rfl := Evaluated.tested.inj hresults
  obtain ⟨q, rest, hfirst, hrest, rfl⟩ := List.forall₂_cons_right_iff.1 hall
  obtain ⟨q', rest, hsecond, hnone, rfl⟩ := List.forall₂_cons_right_iff.1 hrest
  obtain rfl := List.forall₂_nil_right_iff.1 hnone
  have hkept := hfirst.kept
  rw [hone] at hkept
  exact ⟨q.2, q'.2, r, r', hr, hplain, hfirst.unpredicted.2, hone, hkept,
    hfirst.pValue_of_oneSided hone, hsecond.eq_of_twoSided htwo⟩

end StudyAnalysis
