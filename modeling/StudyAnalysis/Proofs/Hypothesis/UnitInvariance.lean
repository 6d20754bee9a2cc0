/-
**The unit of a variable does not matter.**

In exact arithmetic, a hypothesis over plain variables has the same outcome in whatever unit, and
from whatever origin, a numeric variable is measured: its comparisons have the same evidence, the
same tests are chosen with the same warnings, and p-values and effect sizes are the same numbers.
This holds of the resampling fallback as well, which makes the same draws.  If a hypothesis cannot
be evaluated in one unit, it fails with the same error in the other.  The tails of the reference
distributions are arbitrary functions here.

Main definitions:

* `StudyAnalysis.Dataset.changeCells` — a dataset with the cells of one variable changed.

Main results:

* `StudyAnalysis.Exact.runsAlike_testBindings`, `StudyAnalysis.Exact.runsAlike_evaluate` —
  hypotheses about data in other units have the same results or fail alike;
* `StudyAnalysis.Exact.evaluate_unit_invariant` — **the unit of a variable does not matter**.
-/

import StudyAnalysis.Proofs.Hypothesis.LabelOrder
import StudyAnalysis.Proofs.Hypothesis.Remeasurement

set_option autoImplicit false
set_option relaxedAutoImplicit false

namespace StudyAnalysis

open Fallible

/-- A dataset with the cells of one variable changed. -/
def Dataset.changeCells {α : Type} (name : String) (g : Cell α → Cell α) (d : Dataset α) :
    Dataset α :=
  d.mapCells fun v => if v.name = name then g else id

namespace Exact

open Numeric

/-! ### Hypotheses about data in other units -/

section Hypotheses

variable {G : Variable → Cell ℝ → Cell ℝ} (hG : ∀ v, ∃ k, InUnit k (G v)) {d : Dataset ℝ}
  (hkey : ∀ row, (d.mapCells G).keyValue row = d.keyValue row) {ctx : Context ℝ}
  [Tails ℝ] [NumberText ℝ]

omit [Tails ℝ] [NumberText ℝ] in
theorem checkPredictions_mapCells (bindings : List (Binding ℝ)) (predictions : List Prediction) :
    checkPredictions (bindings.map (·.mapCells G)) predictions =
      checkPredictions bindings predictions := by
  have hvars : (bindings.map (·.mapCells G)).filterMap (·.var) = bindings.filterMap (·.var) :=
    List.filterMap_map
  rw [checkPredictions, checkPredictions, hvars]

include hG

/-- Plain variables are bound to the cells in other units. -/
theorem bindOperands_mapCells (text : String) (names : List String) :
    bindOperands (d.mapCells G) ctx text (names.map .column) =
      (bindOperands d ctx text (names.map .column)).map (List.map (·.mapCells G)) := by
  induction names with
  | nil => rfl
  | cons name rest ih =>
      rw [List.map_cons, bindOperands, bindOperands, evaluate, evaluate, ofColumn_mapCells hG, ih]
      cases Binding.ofColumn d name with
      | error err => rfl
      | ok b =>
          have hliteral : (b.mapCells G).isLiteral = b.isLiteral := rfl
          simp only [Except.map, pure_eq_ok, ok_bind, Evaluated.binding]
          by_cases hb : b.isLiteral = true
          · rw [if_pos hb, if_pos (hliteral.trans hb)]
            rfl
          · rw [if_neg hb, if_neg (hliteral ▸ hb)]
            cases bindOperands d ctx text (rest.map .column) <;> rfl

theorem mapM_evaluateBinding_mapCells (names : List String) :
    (names.map Expression.column).mapM (evaluateBinding (d.mapCells G) ctx) =
      ((names.map Expression.column).mapM (evaluateBinding d ctx)).map
        (List.map (·.mapCells G)) := by
  refine mapM_eq_map_mapM fun operand hoperand => ?_
  obtain ⟨name, -, rfl⟩ := List.mem_map.1 hoperand
  rw [evaluateBinding_column, evaluateBinding_column, ofColumn_mapCells hG]

include hkey

/-- **The tests of some bindings have the same results in other units, or they fail alike.** -/
theorem runsAlike_testBindings (settings : Settings ℝ) (declared : Declared) (design : Design ℝ)
    (bindings : List (Binding ℝ)) (predictions : List Prediction) :
    RunsAlike (List.Forall₂ UnitFree)
      (testBindings d settings declared design bindings predictions)
      (testBindings (d.mapCells G) settings declared design (bindings.map (·.mapCells G))
        predictions) := by
  rw [testBindings, testBindings, Binding.map_restrict_mapCells, checkPredictions_mapCells]
  cases checkPredictions _ predictions with
  | error err => exact .error err
  | ok _ =>
      exact (runsAlike_combine hG hkey _ design).bind fun _ _ hpairs => RunsAlike.mapM
        (fun _ _ hp => hp.runsAlike_testComparison settings declared predictions) hpairs

variable (ctx) in
/-- **A hypothesis over plain variables has the same results in other units, or it fails alike.** -/
theorem runsAlike_evaluate (kind : HypothesisKind) (names : List String)
    (predictions : List Prediction) :
    RunsAlike (fun x x' => ∃ results results', x = .tested results ∧ x' = .tested results' ∧
        List.Forall₂ UnitFree results results')
      (evaluate d ctx (.hypothesis kind (names.map .column) predictions))
      (evaluate (d.mapCells G) ctx (.hypothesis kind (names.map .column) predictions)) := by
  rw [evaluate, evaluate]
  cases ctx.design with
  | none => exact .error _
  | some design =>
      dsimp only
      cases design.validate with
      | error err => exact .error err
      | ok _ =>
          rw [ok_bind, ok_bind]
          split
          · exact .error _
          · rw [bindOperands_mapCells hG]
            cases bindOperands d ctx _ (names.map .column) with
            | error err => exact .error err
            | ok bindings =>
                exact (runsAlike_testBindings hG hkey _ ctx.declared design bindings
                  predictions).bind fun results results' h => .ok ⟨results, results', rfl, rfl, h⟩

/-- The comparisons of a hypothesis differ in the units only. -/
theorem exists_compares_mapCells {names : List String} {pairs : List (PairProperties ℝ)}
    (h : Compares d ctx (names.map .column) pairs) :
    ∃ pairs', Compares (d.mapCells G) ctx (names.map .column) pairs' ∧
      List.Forall₂ Remeasured pairs pairs' := by
  obtain ⟨design, bindings, c, hdesign, hbindings, hc, rfl⟩ := h
  obtain ⟨c', hc', hpairs⟩ := (runsAlike_combine hG hkey _ design).exists_of_eq_ok hc
  refine ⟨c'.pairs, ⟨design, bindings.map (·.mapCells G), c', hdesign, ?_, ?_, rfl⟩, hpairs⟩
  · rw [mapM_evaluateBinding_mapCells hG, hbindings]
    rfl
  · rw [Binding.map_restrict_mapCells]
    exact hc'

end Hypotheses

/-! ### One variable in another unit -/

section Variables

variable [Tails ℝ] [NumberText ℝ] {d : Dataset ℝ} {name : String} {k : UnitChange}
  {g : Cell ℝ → Cell ℝ}

/-- **The unit of a variable does not matter.**  In exact arithmetic, if all numbers `y` of one
variable that does not identify participants are replaced by `k.factor * y + k.shift`, with a
positive factor, a hypothesis over plain variables fails with the same error as before, or it has
the same results: the same tests with the same warnings, p-values, be they one-sided or two-sided,
and effect sizes.  The same goes for its comparisons, which have the same evidence even if a test
fails on one of them.  The statistic of the fallback and the variances among the reported properties
have a unit; the p-value of the fallback is that of the same draws. -/
theorem evaluate_unit_invariant (hd : d.WellFormed) (hkey : d.key ≠ some name) (hg : InUnit k g)
    (ctx : Context ℝ) (kind : HypothesisKind) (names : List String)
    (predictions : List Prediction) :
    let hypothesis : Expression ℝ := .hypothesis kind (names.map .column) predictions
    (∀ err, evaluate (d.changeCells name g) ctx hypothesis = .error err ↔
      evaluate d ctx hypothesis = .error err) ∧
    (∀ x, evaluate d ctx hypothesis = .ok x → ∃ results results',
      x = .tested results ∧
        evaluate (d.changeCells name g) ctx hypothesis = .ok (.tested results') ∧
        List.Forall₂ UnitFree results results') ∧
    ∀ pairs, Compares d ctx (names.map .column) pairs → ∃ pairs',
      Compares (d.changeCells name g) ctx (names.map .column) pairs' ∧
        List.Forall₂ (fun p p' => ∀ settings, evidence p' settings = evidence p settings)
          pairs pairs' := by
  intro hypothesis
  have hG : ∀ v : Variable, ∃ k, InUnit k (if v.name = name then g else id) := by
    intro v
    split
    · exact ⟨k, hg⟩
    · exact ⟨.unchanged, inUnit_id⟩
  -- participants are identified by another variable than the one that is remeasured
  have hkeyValue : ∀ row, (d.changeCells name g).keyValue row = d.keyValue row := by
    refine Dataset.keyValue_mapCells fun key c hkey' hc => if_neg fun hname => hkey ?_
    rw [hkey', ← hname, hd.name_eq hc]
  have hrun := runsAlike_evaluate hG hkeyValue ctx kind names predictions
  refine ⟨hrun.eq_error_iff, fun x hx => ?_, fun pairs hpairs => ?_⟩
  · obtain ⟨_, hx', results, results', rfl, rfl, hfree⟩ := hrun.exists_of_eq_ok hx
    exact ⟨results, results', rfl, hx', hfree⟩
  · obtain ⟨pairs', hpairs', hremeasured⟩ := exists_compares_mapCells hG hkeyValue hpairs
    exact ⟨pairs', hpairs', hremeasured.imp fun _ _ hp => hp.evidence_eq⟩

end Variables

/-! ### Temperatures in two wards -/

/-- The temperatures of four patients, in degrees Celsius. -/
noncomputable def temperatures : Dataset ℝ where
  columns := .ofList [
    ("temperature", ⟨⟨"temperature", .interval, none⟩, [.int 37, .int 39, .int 38, .int 40]⟩),
    ("ward", ⟨⟨"ward", .nominal, some ["east", "west"]⟩,
      [.text "east", .text "west", .text "east", .text "west"]⟩)]
  rowCount := 4
  key := none

/-- Degrees Fahrenheit instead of degrees Celsius. -/
noncomputable def fahrenheit : UnitChange :=
  ⟨9 / 5, 32, by norm_num⟩

/-- A cell that holds degrees Celsius in degrees Fahrenheit. -/
noncomputable def cellInFahrenheit : Cell ℝ → Cell ℝ
  | .int n => .real (fahrenheit.measure n)
  | .real x => .real (fahrenheit.measure x)
  | .text s => .text s

theorem inUnit_cellInFahrenheit : InUnit fahrenheit cellInFahrenheit where
  text _ := rfl
  number? cell := by cases cell <;> rfl

/-- A study of other variables, with the standard settings and without declarations. -/
noncomputable def wardContext : Context ℝ :=
  ⟨.standard, some (.observational ["age"] ["weight"]), ⟨∅, ∅⟩⟩

/-- The hypothesis that it is warmer in the west ward. -/
noncomputable def warmerWest : Expression ℝ :=
  .hypothesis .compare (["ward", "temperature"].map .column) [.groupOrder "west" "east"]

/-- Without roles it is unknown whether observations are independent or related, and every test of
the catalog relies on either. -/
theorem not_eligible_of_paired_eq_none {p : PairProperties ℝ} (h : p.paired = none)
    (settings : Settings ℝ) (m : TestMethod) :
    ¬ m.Eligible p.shape (satisfiedSet settings.mode (evidence p settings) ∅) := by
  intro hm
  have hunknown : ∀ a ∈ [Assumption.independentObservations, .pairedObservations, .relatedSamples],
      ¬ a ∈ m.required := by
    intro a ha hrequired
    rcases mem_holds_or_mem_declared (hm.required_subset a hrequired) with hholds | hdeclared
    · rw [mem_holds_evidence] at hholds
      simp only [List.mem_cons, List.not_mem_nil, or_false] at ha
      rcases ha with rfl | rfl | rfl <;>
      · rw [verdictOn, h] at hholds
        cases hholds
    · exact AssumptionSet.not_mem_empty a hdeclared
  -- the catalog is finite, and each of its tests requires one of the three
  have hcatalog := hm.mem_catalog
  revert hunknown hcatalog
  cases m <;> decide

/-- The fallback can be run on two groups that have two values together. -/
theorem exists_execute_bootstrap [Tails ℝ] {labels : List String} {samples : List (List ℝ)}
    {settings : Settings ℝ} (hgroups : 2 ≤ samples.length) (hvalues : 2 ≤ samples.flatten.length)
    (hresamples : settings.bootstrap.resamples ≠ 0) :
    ∃ x, execute .bootstrap (.groups labels samples) settings = .ok x := by
  simp only [execute, mapError_eq_ok_iff, runTest_bootstrap, map_eq_ok_iff]
  obtain ⟨out, hout⟩ := exists_bootstrapGroups_iff.2 ⟨hgroups, hvalues, hresamples⟩
  exact ⟨_, out, hout, rfl⟩

/-- The wards have one comparison, of independent groups without roles. -/
theorem exists_comparesWards [Tails ℝ] [NumberText ℝ] : ∃ bindings c p,
    [Expression.column "ward", .column "temperature"].mapM
        (evaluateBinding temperatures wardContext) = .ok bindings ∧
      (∀ b ∈ bindings, b.isLiteral = false) ∧
      checkPredictions (bindings.map (·.restrict (Binding.commonRows bindings)))
        [.groupOrder "west" "east"] = .ok () ∧
      combine temperatures (bindings.map (·.restrict (Binding.commonRows bindings)))
        (.observational ["age"] ["weight"]) = .ok c ∧
      c.pairs = [p] ∧ p.paired = none ∧ p.shape = .groupComparison 2 false ∧
      p.samples = .groups ["east", "west"] [[ofInt 37, ofInt 38], [ofInt 39, ofInt 40]] := by
  refine ⟨_, _, _, rfl, ?_, rfl, rfl, rfl, rfl, rfl, rfl⟩
  rintro b (_ | ⟨_, _ | ⟨_, ⟨⟩⟩⟩) <;> rfl

/-- The wards are compared by resampling, one-sided. -/
theorem evaluate_temperatures [Tails ℝ] [NumberText ℝ] : ∃ r,
    evaluate temperatures wardContext warmerWest = .ok (.tested [r]) ∧
      r.method = .bootstrap ∧ r.oneSided = true := by
  obtain ⟨bindings, c, p, hbindings, hliteral, hchecked, hc, hpairs, hpaired, hshape, hsamples⟩ :=
    exists_comparesWards
  let s := Selection.ofMethod .strict (evidence p .standard) ∅ .bootstrap true
  -- no test of the catalog is eligible, so the fallback is chosen with a warning
  have hselect : select p (evidence p .standard) ∅ .standard = .ok s :=
    select_eq_ok_iff.2 (.inr ⟨not_eligible_of_paired_eq_none hpaired .standard, rfl, rfl⟩)
  have hexecute : ∃ x, execute .bootstrap p.samples .standard = .ok x := by
    rw [hsamples]
    exact exists_execute_bootstrap (le_refl 2) (Nat.le_add_left 2 2) (by decide)
  obtain ⟨x, hx⟩ := hexecute
  let r := TestResult.ofExecution s x p .standard
  have honeSided : (withPredictions p [.groupOrder "west" "east"] r).oneSided = true := by
    simp only [withPredictions, confirmed?, hshape, PairProperties.observedOrder, hsamples]
    rfl
  refine ⟨_, evaluate_hypothesis_eq_ok_iff.2 ⟨.observational ["age"] ["weight"], bindings, _, rfl,
    rfl, le_refl 2, hbindings, hliteral, testBindings_eq_ok_iff.2 ⟨hchecked, c, hc, ?_⟩, rfl⟩, ?_,
    honeSided⟩
  · rw [hpairs]
    exact mapM_eq_ok_iff.2
      (.cons (testComparison_eq_ok_iff.2 ⟨s, x, hselect, hx, rfl⟩) .nil)
  · rw [method_withPredictions]
    rfl

/-- Whether the temperatures are read in degrees Celsius or Fahrenheit makes no difference to the
p-value, which is drawn at random and one-sided. -/
theorem evaluate_temperatures_fahrenheit :
    let _tails := densityTails
    let _texts := wholeTexts
    temperatures.WellFormed ∧ ∃ r r',
      evaluate temperatures wardContext warmerWest = .ok (.tested [r]) ∧
      evaluate (temperatures.changeCells "temperature" cellInFahrenheit) wardContext warmerWest =
        .ok (.tested [r']) ∧
      r.method = .bootstrap ∧ r'.method = .bootstrap ∧ r'.oneSided = true ∧
      r'.pValue = r.pValue := by
  intro tails texts
  have hcolumns : Dataset.ofColumns temperatures.columns.values = .ok temperatures := rfl
  have hwellFormed : temperatures.WellFormed := Dataset.wellFormed_ofColumns hcolumns
  obtain ⟨r, hr, hmethod, honeSided⟩ := evaluate_temperatures
  have hkey : temperatures.key ≠ some "temperature" := by decide
  obtain ⟨-, hresults, -⟩ := evaluate_unit_invariant hwellFormed hkey inUnit_cellInFahrenheit
    wardContext .compare ["ward", "temperature"] [.groupOrder "west" "east"]
  obtain ⟨results, results', hsame, hr', hfree⟩ := hresults _ hr
  obtain rfl := Evaluated.tested.inj hsame
  obtain ⟨r', rest, hunit, hrest, rfl⟩ := List.forall₂_cons_left_iff.1 hfree
  obtain rfl := List.forall₂_nil_left_iff.1 hrest
  refine ⟨hwellFormed, r, r', hr, hr', hmethod, ?_, ?_, ?_⟩ <;> rw [hunit.eq]
  · exact hmethod
  · exact honeSided

end Exact

end StudyAnalysis
