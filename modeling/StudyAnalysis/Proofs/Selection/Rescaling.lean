/-
**Samples in another unit.**

The samples of a comparison can be measured in another unit and from another origin: all groups in
the same way, each of two correlated variables in its own, and counts not at all.  Every test then
answers the same as before, with the same effect size or for the same reason not at all.  The
fallback makes the same draws, and the statistic that it resamples is multiplied by a positive
number, so that the same resamples are at least as extreme as the sample.

Main definitions:

* `StudyAnalysis.Exact.Rescaled` — samples that differ in their units;
* `StudyAnalysis.TestOutput.scaled`, `StudyAnalysis.Execution.scaled` — an answer with a multiple of
  the statistic.

Main results:

* `StudyAnalysis.Exact.bootstrapIndependence_map` — **a statistic that is multiplied has the same
  p-value by resampling**;
* `StudyAnalysis.Exact.exists_runTest_rescaled` — **every test answers the same in every unit**.
-/

import StudyAnalysis.Proofs.Selection.Reordering
import StudyAnalysis.Proofs.Statistics.UnitFreeTests

set_option autoImplicit false
set_option relaxedAutoImplicit false

namespace StudyAnalysis

/-- An answer with a multiple of the statistic. -/
noncomputable def TestOutput.scaled (c : ℝ) (out : TestOutput ℝ) : TestOutput ℝ :=
  { out with statistic := c * out.statistic }

/-- An answer with effect sizes, with a multiple of the statistic. -/
noncomputable def Execution.scaled (c : ℝ) (x : Execution ℝ) : Execution ℝ :=
  { x with output := x.output.scaled c }

theorem TestOutput.scaled_one (out : TestOutput ℝ) : out.scaled 1 = out := by
  rw [scaled, one_mul]

theorem Execution.scaled_one (x : Execution ℝ) : x.scaled 1 = x := by
  rw [scaled, TestOutput.scaled_one]

namespace Exact

open Numeric Fallible

/-! ### The resampling fallback -/

section Bootstrap

/-- **A statistic that is multiplied has the same p-value by resampling**, with the same draws. -/
theorem bootstrapIndependence_map {σ β γ : Type} (source : DrawSource σ)
    {statistic : List β → List γ → ℝ} {f : β → β} {g : γ → γ} {c : ℝ} (hc : 0 < c)
    (h : ∀ x y, statistic (x.map f) (y.map g) = c * statistic x y) (start : σ) (resamples : ℕ)
    (x : List β) (y : List γ) :
    bootstrapIndependence source start (x.map f) (y.map g) resamples statistic =
      (bootstrapIndependence source start x y resamples statistic).map (·.scaled c) := by
  rw [bootstrapIndependence_eq, bootstrapIndependence_eq, requireAligned_map,
    require_eq_of_length (List.length_map _), h,
    resampled_map source (h := (c * ·)) (fun x y _ => h x y)]
  cases requireAligned x y with
  | error err => rfl
  | ok _ =>
      cases require x 2 with
      | error err => rfl
      | ok _ =>
          rw [ok_bind, ok_bind, ok_bind, ok_bind]
          split
          · rfl
          · refine congrArg Except.ok ?_
            rw [bootstrapOutput, List.countP_map]
            simp only [Function.comp_def, mul_le_mul_iff_of_pos_left hc]
            rfl

section Coded

variable {β γ : Type} (f : β → γ)

theorem codedValues_map (groups : List (List β)) :
    codedValues (groups.map (List.map f)) = (codedValues groups).map (Prod.map id f) := by
  rw [codedValues, codedValues, List.zipIdx_map, List.flatMap_map, List.map_flatMap]
  simp only [Prod.map_fst, Prod.map_snd, List.map_map]
  rfl

theorem filter_isEmpty_map (groups : List (List β)) :
    (groups.map (List.map f)).filter (fun g => !g.isEmpty) =
      (groups.filter fun g => !g.isEmpty).map (List.map f) := by
  rw [List.filter_map]
  simp only [Function.comp_def, List.isEmpty_map]

/-- The values with one code are mapped as all values are. -/
theorem codedGroups_map (codes : List ℕ) (values : List β) :
    ((codeRange codes).map fun code =>
        ((codes.zip (values.map f)).filter fun p => p.1 == code).map (·.2)) =
      ((codeRange codes).map fun code =>
        ((codes.zip values).filter fun p => p.1 == code).map (·.2)).map (List.map f) := by
  rw [List.map_map]
  refine List.map_congr_left fun code _ => ?_
  rw [Function.comp_apply, List.zip_map_right, List.filter_map, List.map_map, List.map_map]
  rfl

end Coded

variable (k : UnitChange)

/-- **The sum of squares between coded groups changes by the square of the factor.** -/
theorem codedBetween_map_unit (codes : List ℕ) (values : List ℝ) :
    codedBetween codes (values.map k.measure) = square k.factor * codedBetween codes values := by
  simp only [codedBetween, codedGroups_map, filter_isEmpty_map, sum_eq, ← List.sum_map_mul_left]
  rw [List.map_map]
  refine congrArg List.sum (List.map_congr_left fun g hg => ?_)
  obtain ⟨hg, hne⟩ := List.mem_filter.1 hg
  have hne : g ≠ [] := by
    rintro rfl
    cases hne
  -- what a group consists of is found among the values
  have hvalues : values ≠ [] := by
    obtain ⟨code, -, rfl⟩ := List.mem_map.1 hg
    rintro rfl
    exact hne (by rw [List.zip_nil_right, List.filter_nil, List.map_nil])
  rw [Function.comp_apply, mean_map_unit k hne, mean_map_unit k hvalues, k.square_measure_sub,
    count_eq, count_eq, List.length_map]
  ring

/-- **The strength of a correlation does not depend on the units.** -/
theorem correlationStrength_map_units (k' : UnitChange) (x y : List ℝ) :
    correlationStrength (x.map k.measure) (y.map k'.measure) = correlationStrength x y := by
  rw [correlationStrength, correlationStrength, correlation_map_units]

end Bootstrap

/-! ### Samples in another unit -/

/-- Samples that differ in their units.  All groups are measured in the same unit and two correlated
variables each in its own; counts have no unit. -/
inductive Rescaled : Samples ℝ → Samples ℝ → Prop
  | groups (k : UnitChange) (labels : List String) (samples : List (List ℝ)) :
      Rescaled (.groups labels samples) (.groups labels (regroup k samples))
  | paired (k : UnitChange) (labels : List String) (samples : List (List ℝ)) :
      Rescaled (.paired labels samples) (.paired labels (regroup k samples))
  | bivariate (k k' : UnitChange) (x y : List ℝ) :
      Rescaled (.bivariate x y) (.bivariate (x.map k.measure) (y.map k'.measure))
  | contingency (rows cols : List String) (table : List (List ℝ)) :
      Rescaled (.contingency rows cols table) (.contingency rows cols table)

section Fallback

variable {σ : Type} (source : DrawSource σ) (start : σ) (resamples : ℕ)

/-- The fallback on groups resamples the values with the codes of their groups. -/
theorem runBootstrap_groups (k : UnitChange) (labels : List String) (samples : List (List ℝ)) :
    runBootstrap source start resamples (.groups labels (regroup k samples)) =
      (runBootstrap source start resamples (.groups labels samples)).map
        (·.scaled (square k.factor)) := by
  have hcodes : ((codedValues samples).map (Prod.map id k.measure)).map (·.1) =
      ((codedValues samples).map (·.1)).map id := by
    rw [List.map_map, List.map_map]
    rfl
  have hvalues : ((codedValues samples).map (Prod.map id k.measure)).map (·.2) =
      ((codedValues samples).map (·.2)).map k.measure := by
    rw [List.map_map, List.map_map]
    rfl
  have hstatistic : ∀ (codes : List ℕ) (values : List ℝ),
      codedBetween (codes.map id) (values.map k.measure) =
        square k.factor * codedBetween codes values := by
    intro codes values
    rw [List.map_id, codedBetween_map_unit]
  have hlength : (regroup k samples).length = samples.length := List.length_map _
  rw [runBootstrap, runBootstrap, require_eq_of_length hlength, regroup, codedValues_map]
  dsimp only
  rw [hcodes, hvalues, bootstrapIndependence_map source k.square_factor_pos hstatistic]
  cases require samples 2 <;> rfl

/-- **The fallback gives the same p-value in every unit**, with the same draws. -/
theorem exists_runBootstrap_rescaled {s s' : Samples ℝ} (h : Rescaled s s') :
    ∃ c, 0 < c ∧ runBootstrap source start resamples s' =
      (runBootstrap source start resamples s).map (·.scaled c) := by
  cases h with
  | groups k labels samples =>
      exact ⟨_, k.square_factor_pos, runBootstrap_groups source start resamples k labels samples⟩
  | paired k labels samples =>
      -- the fallback does not tell related groups from independent ones
      exact ⟨_, k.square_factor_pos, runBootstrap_groups source start resamples k labels samples⟩
  | bivariate k k' x y =>
      refine ⟨1, one_pos,
        bootstrapIndependence_map source one_pos (fun x y => ?_) start resamples x y⟩
      rw [correlationStrength_map_units, one_mul]
  | contingency rows cols table =>
      refine ⟨1, one_pos, ?_⟩
      simp only [TestOutput.scaled_one]
      cases runBootstrap source start resamples (.contingency rows cols table) <;> rfl

end Fallback

/-! ### All tests -/

section RunTest

variable [Tails ℝ] (k : UnitChange) {method : TestMethod} {samples : List (List ℝ)}

omit [Tails ℝ] in
/-- A test of two samples looks at them in another unit. -/
theorem twoSamples_bind_regroup {γ : Type} {f : List ℝ × List ℝ → Except SampleError γ}
    (hf : ∀ a b, f (a.map k.measure, b.map k.measure) = f (a, b)) :
    (twoSamples method (regroup k samples) >>= f) = (twoSamples method samples >>= f) := by
  match samples with
  | [] | [_] | _ :: _ :: _ :: _ => rfl
  | [a, b] => exact hf a b

omit [Tails ℝ] in
theorem ne_nil_of_require {β γ : Type} {a b : List β} {x : Except SampleError γ} {y : γ}
    (h : (do require a 2; require b 2; x) = .ok y) : a ≠ [] ∧ b ≠ [] := by
  obtain ⟨_, ha, h⟩ := bind_eq_ok_iff.1 h
  obtain ⟨_, hb, -⟩ := bind_eq_ok_iff.1 h
  exact ⟨ne_nil_of_two_le ((require_eq_ok_iff a 2).1 ha),
    ne_nil_of_two_le ((require_eq_ok_iff b 2).1 hb)⟩

omit [Tails ℝ] in
/-- The effect size of a test of two means is only looked at if the test can be run. -/
theorem cohensD_bind_map_unit {test : List ℝ → List ℝ → Except SampleError (TestOutput ℝ)}
    (htest : ∀ a b, test (a.map k.measure) (b.map k.measure) = test a b)
    (hne : ∀ a b out, test a b = .ok out → a ≠ [] ∧ b ≠ []) (a b : List ℝ) :
    (do
      let out ← test (a.map k.measure) (b.map k.measure)
      return .ofEffect out "cohens_d" (cohensD (a.map k.measure) (b.map k.measure)) :
      Except SampleError (Execution ℝ)) =
      (do return .ofEffect (← test a b) "cohens_d" (cohensD a b)) := by
  rw [htest]
  cases hout : test a b with
  | error err => rfl
  | ok out =>
      obtain ⟨ha, hb⟩ := hne a b out hout
      rw [cohensD_map_unit k ha hb]

/-- **Every test answers the same in every unit**, the statistic of the fallback apart. -/
theorem runTest_rescaled {σ : Type} {source : DrawSource σ} {start : σ} {resamples : ℕ}
    (hmethod : method ≠ .bootstrap) {s s' : Samples ℝ} (h : Rescaled s s') :
    runTest source start resamples method s' = runTest source start resamples method s := by
  cases h with
  | groups k labels samples =>
      cases method with
      | studentsT =>
          exact twoSamples_bind_regroup k fun a b => cohensD_bind_map_unit k
            (studentsT_map_unit k) (fun _ _ _ => ne_nil_of_require) a b
      | welchT =>
          exact twoSamples_bind_regroup k fun a b => cohensD_bind_map_unit k
            (welchT_map_unit k) (fun _ _ _ => ne_nil_of_require) a b
      | mannWhitneyU =>
          refine twoSamples_bind_regroup k fun a b => ?_
          dsimp only
          rw [mannWhitneyU_map_unit, List.length_map, List.length_map]
      | oneWayAnova =>
          rw [runTest, runTest, oneWayAnova_map_unit]
          -- the effect size compares means, and those of groups without values have no unit
          cases hout : oneWayAnova samples with
          | error err => rfl
          | ok out =>
              obtain ⟨_, hrequire, -⟩ := bind_eq_ok_iff.1 hout
              obtain ⟨hmany, hall⟩ := requireGroups_eq_ok_iff.1 hrequire
              rw [etaSquared_regroup k (ne_nil_of_two_le hmany)
                fun g hg => ne_nil_of_two_le (hall g hg)]
      | kruskalWallis =>
          simp only [runTest, kruskalWallis_map_unit, flatten_regroup, List.length_map]
      | bootstrap => exact absurd rfl hmethod
      | _ => rfl
  | paired k labels samples =>
      cases method with
      | pairedT =>
          refine twoSamples_bind_regroup k fun a b => ?_
          dsimp only
          rw [pairedT_map_unit, cohensDz_map_unit]
      | wilcoxonSignedRank =>
          refine twoSamples_bind_regroup k fun a b => ?_
          dsimp only
          rw [wilcoxonSignedRank_map_unit, zip_map_units, List.countP_map]
          simp only [Function.comp_def, Prod.map_fst, Prod.map_snd, UnitChange.measure_beq]
      | friedman =>
          have hcount : (count ((regroup k samples).headD []) : ℝ) = count (samples.headD []) := by
            cases samples <;> simp [regroup]
          have hcount' : (count (regroup k samples) : ℝ) = count samples := by
            rw [count_eq, count_eq, regroup, List.length_map]
          simp only [runTest, friedman_map_unit, hcount, hcount']
      | bootstrap => exact absurd rfl hmethod
      | _ => rfl
  | bivariate k k' x y =>
      cases method with
      | pearson => simp only [runTest, pearson_map_unit]
      | spearman => simp only [runTest, spearman_map_unit]
      | kendallTau => simp only [runTest, kendallTau_map_unit]
      | bootstrap => exact absurd rfl hmethod
      | _ => rfl
  | contingency rows cols table => rfl

/-- **Every test answers the same in every unit**: it fails for the same reason, or its p-value,
degrees of freedom and effect sizes are the same.  So is the statistic, unless it is the one that
the fallback resamples. -/
theorem exists_runTest_rescaled {σ : Type} (source : DrawSource σ) (start : σ) (resamples : ℕ)
    (method : TestMethod) {s s' : Samples ℝ} (h : Rescaled s s') :
    ∃ c, 0 < c ∧ (method ≠ .bootstrap → c = 1) ∧ runTest source start resamples method s' =
      (runTest source start resamples method s).map (·.scaled c) := by
  by_cases hmethod : method = .bootstrap
  · subst hmethod
    obtain ⟨c, hc, hrun⟩ := exists_runBootstrap_rescaled source start resamples h
    refine ⟨c, hc, fun hne => absurd rfl hne, ?_⟩
    rw [runTest_bootstrap, runTest_bootstrap, hrun]
    cases runBootstrap source start resamples s <;> rfl
  · refine ⟨1, one_pos, fun _ => rfl, ?_⟩
    rw [runTest_rescaled hmethod h]
    simp only [Execution.scaled_one]
    cases runTest source start resamples method s <;> rfl

end RunTest

end Exact

end StudyAnalysis
