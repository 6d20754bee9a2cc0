/-
**Comparisons of samples in another unit.**

Everything that the choice of a test looks at is read off tests, ranks and outliers, which do not
depend on the unit in which a sample is measured; only the variances that are reported for the
variables do.  So comparisons that differ in the unit have the same evidence, lead to the same test
and fail for the same reason.  The order of two means and the sign of a correlation are the same as
well, and with them the direction that a one-sided result is taken in.

Main definitions:

* `StudyAnalysis.Exact.Remeasured` — properties of two comparisons that differ in the units;
* `StudyAnalysis.Exact.UnitFree` — results that differ in what has a unit only.

Main results:

* `StudyAnalysis.Exact.remeasured_sampledProperties` — **groups in another unit have the same
  properties**;
* `StudyAnalysis.Exact.Remeasured.evidence_eq`, `StudyAnalysis.Exact.Remeasured.select_eq`,
  `StudyAnalysis.Exact.Remeasured.confirmed?_eq` — what is read off them;
* `StudyAnalysis.Exact.Remeasured.runsAlike_testComparison` — **comparisons in another unit have the
  same result or fail alike**.
-/

import StudyAnalysis.Proofs.Hypothesis.ReorderedComparisons
import StudyAnalysis.Proofs.Selection.Rescaling

set_option autoImplicit false
set_option relaxedAutoImplicit false

namespace StudyAnalysis.Exact

open Numeric Fallible

/-! ### Properties of samples in another unit -/

/-- Either all groups have values or none has. -/
def EvenlyFilled (samples : List (List ℝ)) : Prop :=
  ∀ a ∈ samples, ∀ b ∈ samples, a = [] → b = []

theorem evenlyFilled_of_ne_nil {samples : List (List ℝ)} (h : ∀ a ∈ samples, a ≠ []) :
    EvenlyFilled samples :=
  fun a ha _ _ hnil => absurd hnil (h a ha)

theorem evenlyFilled_of_length {samples : List (List ℝ)} {n : ℕ} (h : ∀ a ∈ samples, a.length = n) :
    EvenlyFilled samples := by
  intro a ha b hb hnil
  rw [← List.length_eq_zero_iff, h b hb, ← h a ha, hnil, List.length_nil]

/-- Properties of two comparisons that differ in the units in which the samples are measured.  The
variances that are reported for the variables have a unit. -/
structure Remeasured (p p' : PairProperties ℝ) : Prop where
  rescaled : Rescaled p.samples p'.samples
  /-- Groups that are compared have means, or none of them does. -/
  evenlyFilled : ∀ labels samples, p.samples.groups? = some (labels, samples) → EvenlyFilled samples
  eq : p' = { p with samples := p'.samples, variableProperties := p'.variableProperties }

section Samples

variable (k : UnitChange) (paired : Bool)

theorem groupDifferences_regroup (samples : List (List ℝ)) :
    groupDifferences paired (regroup k samples) =
      (groupDifferences paired samples).map (List.map k.ofDifferences.measure) := by
  match samples with
  | [] | [_] | _ :: _ :: _ :: _ => rfl
  | [a, b] =>
      show (if paired then (differences (a.map k.measure) (b.map k.measure)).toOption else none) = _
      rw [differences_map_unit, groupDifferences]
      cases paired with
      | false => rfl
      | true => cases differences a b <;> rfl

variable [Tails ℝ] (outcome : Variable)

theorem normalityCheck_map_unit (sample : List ℝ) :
    normalityCheck outcome (sample.map k.measure) = normalityCheck outcome sample := by
  rw [normalityCheck, normalityCheck, normalTest_map_unit]

omit [Tails ℝ] in
/-- What is read off each group is the same in every unit. -/
theorem map_regroup {γ : Type} {f : List ℝ → γ} (hf : ∀ g, f (g.map k.measure) = f g)
    (samples : List (List ℝ)) : (regroup k samples).map f = samples.map f := by
  rw [regroup, List.map_map]
  exact List.map_congr_left fun g _ => hf g

variable (labels : List String) (base : PairProperties ℝ)
  (properties : NameMap (VariableProperties ℝ))

/-- **Groups in another unit have the same properties**, those of the variables apart. -/
theorem remeasured_sampledProperties {samples : List (List ℝ)} (h : EvenlyFilled samples) :
    Remeasured (sampledProperties outcome paired labels samples base)
      (sampledProperties outcome paired labels (regroup k samples)
        { base with variableProperties := properties }) := by
  have hdifferences {γ : Type} (f : List ℝ → Option γ)
      (hf : ∀ ds : List ℝ, f (ds.map k.ofDifferences.measure) = f ds) :
      (groupDifferences paired (regroup k samples)).bind f =
        (groupDifferences paired samples).bind f := by
    rw [groupDifferences_regroup, Option.bind_map]
    exact congrArg _ (funext hf)
  have hlength : (regroup k samples).length = samples.length := List.length_map _
  have hnormality := hdifferences _ (normalityCheck_map_unit k.ofDifferences outcome)
  have hsymmetry := hdifferences (fun ds => (skewTest ds).toOption) fun ds => by
    rw [skewTest_map_unit]
  have houtliers : (groupDifferences paired (regroup k samples)).map tukeyOutliers =
      (groupDifferences paired samples).map tukeyOutliers := by
    rw [Option.map_eq_bind, Option.map_eq_bind]
    exact hdifferences _ fun ds => congrArg some (tukeyOutliers_map_unit _ ds)
  rw [sampledProperties_eq, sampledProperties_eq, hnormality, hsymmetry, houtliers, hlength,
    levene_map_unit, map_regroup k (fun g => List.length_map _),
    map_regroup k (normalityCheck_map_unit k outcome), map_regroup k (tukeyOutliers_map_unit k)]
  cases paired with
  | false =>
      refine ⟨.groups k labels samples, fun names groups hgroups => ?_, rfl⟩
      obtain ⟨⟩ := hgroups
      exact h
  | true =>
      refine ⟨.paired k labels samples, fun names groups hgroups => ?_, rfl⟩
      obtain ⟨⟩ := hgroups
      exact h

end Samples

/-! ### What is read off the properties -/

/-- The sample of a label is measured in the unit of all groups. -/
theorem Rescaled.exists_sampleOf? {s s' : Samples ℝ} (h : Rescaled s s') :
    ∃ k : UnitChange, ∀ label,
      s'.sampleOf? label = (s.sampleOf? label).map (List.map k.measure) := by
  have hgroups (k : UnitChange) (labels : List String) (samples : List (List ℝ)) (label : String) :
      ((labels.idxOf? label).bind fun i => (regroup k samples)[i]?) =
        ((labels.idxOf? label).bind fun i => samples[i]?).map (List.map k.measure) := by
    rw [Option.map_bind]
    exact congrArg _ (funext fun i => List.getElem?_map)
  cases h with
  | groups k labels samples | paired k labels samples => exact ⟨k, hgroups k labels samples⟩
  | bivariate | contingency => exact ⟨.unchanged, fun _ => rfl⟩

theorem exists_of_sampleOf? {s : Samples ℝ} {label : String} {a : List ℝ}
    (h : s.sampleOf? label = some a) :
    ∃ labels samples, s.groups? = some (labels, samples) ∧ a ∈ samples := by
  obtain ⟨⟨labels, samples⟩, hgroups, h⟩ := Option.bind_eq_some_iff.1 h
  obtain ⟨i, -, h⟩ := Option.bind_eq_some_iff.1 h
  exact ⟨labels, samples, hgroups, List.mem_of_getElem? h⟩

namespace Remeasured

variable {p p' : PairProperties ℝ}

theorem names_eq (h : Remeasured p p') : p'.names = p.names := by
  rw [h.eq]
  rfl

theorem shape_eq (h : Remeasured p p') : p'.shape = p.shape := by
  rw [h.eq]

/-- **The evidence is the same.** -/
theorem evidence_eq (h : Remeasured p p') (settings : Settings ℝ) :
    evidence p' settings = evidence p settings := by
  have hverdict : verdictOn p' settings = verdictOn p settings := by
    funext a
    rw [h.eq]
    cases a <;> rfl
  rw [evidence, evidence, hverdict]

/-- **The choice of a test is the same**, with its warnings. -/
theorem select_eq (h : Remeasured p p') (declared : AssumptionSet) (settings : Settings ℝ) :
    select p' (evidence p' settings) declared settings =
      select p (evidence p settings) declared settings := by
  rw [select, select, h.evidence_eq, h.shape_eq, h.names_eq]

/-- Means of groups are in the same order in every unit. -/
theorem observedOrder_eq (h : Remeasured p p') (greater lesser : String) :
    p'.observedOrder greater lesser = p.observedOrder greater lesser := by
  obtain ⟨k, hsample⟩ := h.rescaled.exists_sampleOf?
  rw [PairProperties.observedOrder, PairProperties.observedOrder, hsample, hsample]
  cases hg : p.samples.sampleOf? greater with
  | none => rfl
  | some g =>
      cases hl : p.samples.sampleOf? lesser with
      | none => rfl
      | some l =>
          show some (decide (mean (l.map k.measure) < mean (g.map k.measure))) =
            some (decide (mean l < mean g))
          obtain ⟨labels, samples, hgroups, hgmem⟩ := exists_of_sampleOf? hg
          obtain ⟨labels', samples', hgroups', hlmem⟩ := exists_of_sampleOf? hl
          obtain ⟨⟩ := hgroups.symm.trans hgroups'
          have hfilled := h.evenlyFilled labels samples hgroups
          -- the mean of no values is zero in every unit, but then neither group has values
          by_cases hnil : g = []
          · rw [hnil, hfilled g hgmem l hlmem hnil, List.map_nil]
          · rw [mean_map_unit k hnil, mean_map_unit k fun hl => hnil (hfilled l hlmem g hgmem hl)]
            simp only [k.measure_lt_iff]

/-- The sign of a correlation does not depend on the units. -/
theorem observedSign_eq (h : Remeasured p p') : p'.observedSign = p.observedSign := by
  have hrescaled := h.rescaled
  rw [PairProperties.observedSign, PairProperties.observedSign]
  generalize p.samples = s at hrescaled ⊢
  generalize p'.samples = s' at hrescaled ⊢
  cases hrescaled with
  | bivariate k k' x y =>
      dsimp only
      rw [correlation_map_units]
  | groups | paired | contingency => rfl

/-- **A prediction came true in both or in none.** -/
theorem confirmed?_eq (h : Remeasured p p') (prediction : Prediction) :
    confirmed? p' prediction = confirmed? p prediction := by
  unfold confirmed?
  rw [h.shape_eq, h.observedSign_eq]
  simp only [h.observedOrder_eq]

end Remeasured

/-! ### The result -/

/-- Two results that differ in what has a unit only: the reported properties of the variables and,
if it is the one that the fallback resamples, the statistic.  The p-value is always the same. -/
structure UnitFree (r r' : TestResult ℝ) : Prop where
  eq : r' = { r with statistic := r'.statistic, properties := r'.properties }
  statistic : r.method ≠ .bootstrap → r'.statistic = r.statistic

namespace UnitFree

variable {r r' : TestResult ℝ}

theorem makeOneSided (h : UnitFree r r') (confirmed : Bool) :
    UnitFree (r.makeOneSided confirmed) (r'.makeOneSided confirmed) := by
  have hsided : r'.oneSided = r.oneSided := by rw [h.eq]
  rw [TestResult.makeOneSided, TestResult.makeOneSided, hsided]
  split
  · exact h
  · refine ⟨?_, h.statistic⟩
    rw [h.eq]

theorem withPredictions {p p' : PairProperties ℝ} (hp : Remeasured p p') (h : UnitFree r r')
    (predictions : List Prediction) : UnitFree (StudyAnalysis.withPredictions p predictions r)
      (StudyAnalysis.withPredictions p' predictions r') := by
  have hpredicted : UnitFree { r with predictions } { r' with predictions } := by
    refine ⟨?_, h.statistic⟩
    rw [h.eq]
  unfold StudyAnalysis.withPredictions
  split
  · rename_i prediction
    dsimp only
    rw [hp.confirmed?_eq]
    split
    · exact hpredicted.makeOneSided _
    · exact hpredicted
  · exact hpredicted

end UnitFree

/-- **Comparisons in another unit have the same result or fail alike.** -/
theorem Remeasured.runsAlike_testComparison [Tails ℝ] {p p' : PairProperties ℝ}
    (h : Remeasured p p') (settings : Settings ℝ) (declared : Declared)
    (predictions : List Prediction) :
    RunsAlike UnitFree (testComparison settings declared predictions p)
      (testComparison settings declared predictions p') := by
  rw [testComparison, testComparison, h.names_eq, h.select_eq]
  cases select p (evidence p settings) (declared.forVariables p.names) settings with
  | error err => exact .error err
  | ok s =>
      obtain ⟨c, -, hone, hrun⟩ := exists_runTest_rescaled ChaCha.source
        (ChaCha.Stream.ofSeed settings.bootstrap.seed.toUInt64) settings.bootstrap.resamples
        s.method h.rescaled
      rw [ok_bind, ok_bind, execute, execute, hrun]
      cases runTest ChaCha.source _ settings.bootstrap.resamples s.method p.samples with
      | error err => exact .error _
      | ok x =>
          refine .ok (UnitFree.withPredictions h ⟨?_, fun hmethod => ?_⟩ predictions)
          · rw [TestResult.ofExecution, TestResult.ofExecution, h.names_eq]
            rfl
          · show c * x.output.statistic = x.output.statistic
            rw [hone hmethod, one_mul]

end StudyAnalysis.Exact
