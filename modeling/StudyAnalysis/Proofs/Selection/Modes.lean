/-
**What overriding and honouring contradicted declarations have in common.**

The mode of an analysis decides about the declarations that the data contradict: they are either
overridden or honoured with a warning.  This module compares the two choices that the same
comparison, evidence and declarations lead to.  Everything in it follows from one inclusion (what
is taken to hold when declarations are overridden is taken to hold when they are honoured) and
from the fact that the best test is unique.

Main results:

* `StudyAnalysis.satisfiedSet_relaxed` — the two sets of satisfied assumptions differ by the
  contradicted declarations;
* `StudyAnalysis.warnings_eq_nil_iff` — there is no warning exactly if the test relies on no
  contradicted declaration;
* `StudyAnalysis.select_strict_of_warnings_eq_nil` — a choice without warnings is made in both
  modes;
* `StudyAnalysis.select_strict_and_relaxed` — **the two choices differ by the contradicted
  declarations only**.
-/

import StudyAnalysis.Proofs.Selection.Optimal

set_option autoImplicit false
set_option relaxedAutoImplicit false

namespace StudyAnalysis

variable {α : Type} {e : Evidence} {declared : AssumptionSet}

/-! ### Satisfied assumptions -/

/-- Honouring all declarations adds the contradicted ones to what is taken to hold. -/
theorem satisfiedSet_relaxed (e : Evidence) (declared : AssumptionSet) :
    satisfiedSet .relaxed e declared = satisfiedSet .strict e declared ∪ (declared ∩ e.violated) := by
  ext a
  simp only [satisfiedSet, AssumptionSet.mem_union, AssumptionSet.mem_sdiff,
    AssumptionSet.mem_inter]
  by_cases hviolated : a ∈ e.violated <;> simp [hviolated]

theorem satisfiedSet_strict_subset (e : Evidence) (declared : AssumptionSet) :
    satisfiedSet .strict e declared ⊆ satisfiedSet .relaxed e declared := by
  intro a ha
  rw [satisfiedSet_relaxed, AssumptionSet.mem_union]
  exact .inl ha

/-- What is taken to hold only because contradicted declarations are honoured is such a
declaration. -/
theorem mem_satisfiedSet_strict {a : Assumption} (ha : a ∈ satisfiedSet .relaxed e declared)
    (hfree : ¬a ∈ declared ∩ e.violated) : a ∈ satisfiedSet .strict e declared := by
  rw [satisfiedSet_relaxed, AssumptionSet.mem_union] at ha
  exact ha.resolve_right hfree

theorem satisfiedSet_strict_eq_relaxed (hfree : declared ∩ e.violated = ∅) :
    satisfiedSet .strict e declared = satisfiedSet .relaxed e declared := by
  rw [satisfiedSet_relaxed, hfree]
  ext a
  simp

/-! ### Warnings -/

/-- The warnings are about the contradicted declarations that the test relies on, in the order of
all assumptions. -/
theorem warnings_relaxed {m : TestMethod} {fallback : Bool} :
    (Selection.ofMethod .relaxed e declared m fallback).warnings =
      (Assumption.all.filter fun a => a ∈ declared ∧ a ∈ e.violated ∧ a ∈ m.required).map
        (contradictionWarning m) := by
  refine congrArg (List.map (contradictionWarning m)) (List.filter_congr fun a _ => ?_)
  rw [Bool.eq_iff_iff, AssumptionSet.has_eq_true, decide_eq_true_eq]
  simp only [AssumptionSet.mem_inter, and_assoc]

/-- There is no warning exactly if the test relies on no contradicted declaration. -/
theorem warnings_eq_nil_iff {m : TestMethod} {fallback : Bool} :
    (Selection.ofMethod .relaxed e declared m fallback).warnings = [] ↔
      ∀ a, a ∈ m.required → ¬a ∈ declared ∩ e.violated := by
  rw [Selection.ofMethod, List.map_eq_nil_iff, List.eq_nil_iff_forall_not_mem]
  simp only [AssumptionSet.mem_members, AssumptionSet.mem_inter]
  constructor
  · exact fun h a hrequired hmem => h a ⟨hmem, hrequired⟩
  · exact fun h a hmem => h a hmem.2 hmem.1

/-! ### The two choices -/

theorem not_eligible_strict {shape : Shape}
    (hnone : ∀ m : TestMethod, ¬m.Eligible shape (satisfiedSet .relaxed e declared)) :
    ∀ m : TestMethod, ¬m.Eligible shape (satisfiedSet .strict e declared) :=
  fun m hm => hnone m (hm.mono (satisfiedSet_strict_subset e declared))

section Choices

variable {p : PairProperties α} {settings : Settings α} {s r : Selection}

/-- If overriding leaves a regular test, honouring leads to one that is no less demanding. -/
theorem exists_relaxed_of_strict
    (hs : select p e declared { settings with mode := .strict } = .ok s)
    (hregular : s.fallback = false) :
    ∃ r, select p e declared { settings with mode := .relaxed } = .ok r ∧ r.fallback = false ∧
      r.method ∈ TestMethod.catalog ∧ s.method.specificity ≤ r.method.specificity := by
  rcases select_eq_ok_iff.1 hs with ⟨m, hm, rfl⟩ | ⟨-, -, rfl⟩
  · -- the test of the one mode competes in the other, so the best one there is at least as good
    have hm' := hm.eligible.mono (satisfiedSet_strict_subset e declared)
    obtain ⟨k, hk⟩ := hm'.exists_optimal
    exact ⟨_, select_eq_ok_iff.2 (.inl ⟨k, hk, rfl⟩), rfl, hk.eligible.mem_catalog,
      hk.specificity_le m hm'⟩
  · cases hregular

theorem exists_strict_fallback
    (hr : select p e declared { settings with mode := .relaxed } = .ok r)
    (hfallback : r.fallback = true) :
    ∃ s, select p e declared { settings with mode := .strict } = .ok s ∧ s.fallback = true := by
  rcases select_eq_ok_iff.1 hr with ⟨m, -, rfl⟩ | ⟨hnone, henabled, rfl⟩
  · cases hfallback
  · exact ⟨_, select_eq_ok_iff.2 (.inr ⟨not_eligible_strict hnone, henabled, rfl⟩), rfl⟩

theorem select_strict_eq_error {err : AnalysisError α}
    (h : select p e declared { settings with mode := .relaxed } = .error err) :
    select p e declared { settings with mode := .strict } = .error err := by
  obtain ⟨hnone, hdisabled, rfl⟩ := select_eq_error_iff.1 h
  exact select_eq_error_iff.2 ⟨not_eligible_strict hnone, hdisabled, rfl⟩

/-- A choice without warnings is made in both modes. -/
theorem select_strict_of_warnings_eq_nil
    (hr : select p e declared { settings with mode := .relaxed } = .ok r)
    (hwarnings : r.warnings = []) :
    select p e declared { settings with mode := .strict } =
      .ok (.ofMethod .strict e declared r.method r.fallback) := by
  rw [select_eq_ok_iff]
  rcases select_eq_ok_iff.1 hr with ⟨m, hm, rfl⟩ | ⟨hnone, henabled, rfl⟩
  · -- the best test needs none of the assumptions that overriding takes away
    have hrequired : m.required ⊆ satisfiedSet .strict e declared := fun a ha =>
      mem_satisfiedSet_strict (hm.eligible.required_subset a ha)
        (warnings_eq_nil_iff.1 hwarnings a ha)
    exact .inl ⟨m, hm.anti (satisfiedSet_strict_subset e declared) hrequired, rfl⟩
  · exact .inr ⟨not_eligible_strict hnone, henabled, rfl⟩

end Choices

theorem ofMethod_strict_eq_relaxed (hfree : declared ∩ e.violated = ∅) (m : TestMethod)
    (fallback : Bool) :
    Selection.ofMethod .strict e declared m fallback =
      Selection.ofMethod .relaxed e declared m fallback := by
  have hwarnings : (Selection.ofMethod .relaxed e declared m fallback).warnings = [] := by
    rw [warnings_eq_nil_iff, hfree]
    exact fun a _ => AssumptionSet.not_mem_empty a
  simp only [Selection.ofMethod] at hwarnings ⊢
  rw [hwarnings, satisfiedSet_strict_eq_relaxed hfree, hfree]

/-- **The two choices differ by the contradicted declarations only.**  Honouring declarations adds
the contradicted ones to what is taken to hold; it never leads to a less demanding test, to the
fallback or to a failure where overriding does not; it warns of every contradicted declaration that
the chosen test relies on, and of nothing else, in the order of all assumptions; and it says so
whenever it makes a different choice. -/
theorem select_strict_and_relaxed (p : PairProperties α) (e : Evidence) (declared : AssumptionSet)
    (settings : Settings α) :
    let contradicted := declared ∩ e.violated
    let strict := select p e declared { settings with mode := .strict }
    let relaxed := select p e declared { settings with mode := .relaxed }
    (satisfiedSet .relaxed e declared = satisfiedSet .strict e declared ∪ contradicted ∧
      ∀ s r, strict = .ok s → relaxed = .ok r → r.satisfied = s.satisfied ∪ contradicted) ∧
    (∀ s, strict = .ok s → s.fallback = false →
      ∃ r, relaxed = .ok r ∧ r.fallback = false ∧ r.method ∈ TestMethod.catalog ∧
        s.method.specificity ≤ r.method.specificity) ∧
    (∀ r, relaxed = .ok r → r.fallback = true → ∃ s, strict = .ok s ∧ s.fallback = true) ∧
    (∀ err, relaxed = .error err → strict = .error err) ∧
    (∀ r, relaxed = .ok r →
      r.warnings = (Assumption.all.filter fun a =>
        a ∈ declared ∧ a ∈ e.violated ∧ a ∈ r.method.required).map
          (contradictionWarning r.method)) ∧
    (∀ s, strict = .ok s → s.warnings = []) ∧
    (∀ s, strict = .ok s → s.overridden = contradicted) ∧
    (∀ r, relaxed = .ok r → r.overridden = ∅) ∧
    (∀ r, relaxed = .ok r → (¬∃ s, strict = .ok s ∧ s.method = r.method) → r.warnings ≠ []) ∧
    (contradicted = ∅ → strict = relaxed) := by
  intro contradicted strict relaxed
  refine ⟨⟨satisfiedSet_relaxed e declared, ?satisfied⟩, fun s => exists_relaxed_of_strict,
    fun r => exists_strict_fallback, fun err => select_strict_eq_error, ?warnings, ?silent,
    ?overridden, ?honoured, ?different, ?equal⟩
  case satisfied =>
    intro s r hs hr
    rw [eq_ofMethod_of_select hs, eq_ofMethod_of_select hr]
    exact satisfiedSet_relaxed e declared
  case warnings =>
    intro r hr
    rw [eq_ofMethod_of_select hr]
    exact warnings_relaxed
  case silent =>
    intro s hs
    rw [eq_ofMethod_of_select hs]
    rfl
  case overridden =>
    intro s hs
    rw [eq_ofMethod_of_select hs]
    rfl
  case honoured =>
    intro r hr
    rw [eq_ofMethod_of_select hr]
    rfl
  case different =>
    intro r hr hdifferent hwarnings
    exact hdifferent ⟨_, select_strict_of_warnings_eq_nil hr hwarnings, rfl⟩
  case equal =>
    intro hfree
    have hsatisfied : satisfiedSet .strict e declared = satisfiedSet .relaxed e declared :=
      satisfiedSet_strict_eq_relaxed hfree
    simp only [strict, relaxed, select, hsatisfied, ofMethod_strict_eq_relaxed hfree]

end StudyAnalysis
