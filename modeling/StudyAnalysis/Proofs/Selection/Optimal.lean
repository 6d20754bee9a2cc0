/-
**The chosen test is the best one that the assumptions allow.**

`StudyAnalysis.select` runs through the catalog, keeps the best test so far, and falls back to
resampling if it has found none.  This module says what that loop arrives at, without mentioning
it: of the tests that can be run on the comparison and rely on nothing but what is taken to hold,
the one that relies on most, and of several such tests the first one of the catalog.

Main definitions:

* `StudyAnalysis.TestMethod.Eligible` — a test of the catalog fits a comparison and a set of
  assumptions;
* `StudyAnalysis.TestMethod.Optimal` — it is the best of those tests.

Main results:

* `StudyAnalysis.mostSpecific?_eq_argmax` — the loop takes the first greatest test;
* `StudyAnalysis.TestMethod.Optimal.unique` — there is at most one best test;
* `StudyAnalysis.select_eq_ok_iff`, `StudyAnalysis.select_eq_error_iff` — **the outcomes of
  choosing**: the best test, or the fallback or a failure when no test is eligible;
* `StudyAnalysis.select_eq_best_or_fallback` — the same of every run, together with what holds of
  the assumptions behind the choice when contradicted declarations are overridden.
-/

import Mathlib.Data.List.MinMax
import StudyAnalysis.Selection.Choice

set_option autoImplicit false
set_option relaxedAutoImplicit false

namespace StudyAnalysis

variable {α : Type}

/-! ### The loop -/

/-- Keeping the best test so far is taking the first greatest one. -/
theorem mostSpecific?_eq_argmax (ms : List TestMethod) :
    mostSpecific? ms = ms.argmax TestMethod.specificity := by
  have hstep : moreSpecific = List.argAux fun b c => c.specificity < b.specificity := by
    funext best next
    cases best with
    | none => rfl
    | some b => simp [moreSpecific, List.argAux]
  rw [mostSpecific?, hstep, List.argmax]

/-- What stands before an element that stays in a shorter list stands before it in the whole list. -/
theorem idxOf_le_of_idxOf_filter_le {β : Type} [DecidableEq β] (keep : β → Bool) (xs : List β)
    {x y : β} (hy : keep y = true)
    (h : (xs.filter keep).idxOf x ≤ (xs.filter keep).idxOf y) : xs.idxOf x ≤ xs.idxOf y := by
  induction xs with
  | nil => simp
  | cons a rest ih =>
      by_cases hax : a = x
      · simp [hax]
      by_cases hay : a = y
      · -- then `y` stands before `x` in the shorter list, too
        subst hay
        rw [List.filter_cons_of_pos hy, List.idxOf_cons_self, List.idxOf_cons_ne _ hax] at h
        omega
      rw [List.idxOf_cons_ne _ hax, List.idxOf_cons_ne _ hay]
      refine Nat.succ_le_succ (ih ?_)
      by_cases hkeep : keep a = true
      · rw [List.filter_cons_of_pos hkeep, List.idxOf_cons_ne _ hax, List.idxOf_cons_ne _ hay] at h
        exact Nat.le_of_succ_le_succ h
      · rwa [List.filter_cons_of_neg hkeep] at h

namespace TestMethod

/-! ### Eligible tests -/

/-- A test of the catalog can be run on comparisons of a shape and relies on nothing but the given
assumptions. -/
structure Eligible (shape : Shape) (satisfied : AssumptionSet) (m : TestMethod) : Prop where
  mem_catalog : m ∈ catalog
  appliesTo : m.appliesTo shape = true
  required_subset : m.required ⊆ satisfied

variable {shape : Shape} {satisfied satisfied' : AssumptionSet} {m k : TestMethod}

theorem mem_eligibleTests : m ∈ eligibleTests shape satisfied ↔ m.Eligible shape satisfied := by
  rw [eligibleTests, candidates, List.mem_filter, List.mem_filter, decide_eq_true_eq]
  constructor
  · rintro ⟨⟨hmem, happlies⟩, hrequired⟩
    exact ⟨hmem, happlies, hrequired⟩
  · rintro ⟨hmem, happlies, hrequired⟩
    exact ⟨⟨hmem, happlies⟩, hrequired⟩

/-- More assumptions leave a test eligible. -/
theorem Eligible.mono (h : m.Eligible shape satisfied) (hsub : satisfied ⊆ satisfied') :
    m.Eligible shape satisfied' :=
  ⟨h.mem_catalog, h.appliesTo, fun a ha => hsub a (h.required_subset a ha)⟩

/-- The eligible test that relies on most assumptions; of several such tests it is the first one of
the catalog. -/
structure Optimal (shape : Shape) (satisfied : AssumptionSet) (m : TestMethod) : Prop where
  eligible : m.Eligible shape satisfied
  specificity_le : ∀ k : TestMethod, k.Eligible shape satisfied → k.specificity ≤ m.specificity
  idxOf_le : ∀ k : TestMethod, k.Eligible shape satisfied → k.specificity = m.specificity →
    catalog.idxOf m ≤ catalog.idxOf k

theorem Optimal.unique (hm : m.Optimal shape satisfied) (hk : k.Optimal shape satisfied) :
    m = k := by
  have hspec : k.specificity = m.specificity :=
    Nat.le_antisymm (hm.specificity_le k hk.eligible) (hk.specificity_le m hm.eligible)
  have hidx : catalog.idxOf m = catalog.idxOf k :=
    Nat.le_antisymm (hm.idxOf_le k hk.eligible hspec) (hk.idxOf_le m hm.eligible hspec.symm)
  exact (List.idxOf_inj hm.eligible.mem_catalog).1 hidx

/-- A best test stays the best one among fewer assumptions, if it needs none of those that are
gone. -/
theorem Optimal.anti (h : m.Optimal shape satisfied') (hsub : satisfied ⊆ satisfied')
    (hrequired : m.required ⊆ satisfied) : m.Optimal shape satisfied where
  eligible := ⟨h.eligible.mem_catalog, h.eligible.appliesTo, hrequired⟩
  specificity_le k hk := h.specificity_le k (hk.mono hsub)
  idxOf_le k hk := h.idxOf_le k (hk.mono hsub)

/-- The loop finds the best test. -/
theorem optimal_of_mostSpecific? (h : mostSpecific? (eligibleTests shape satisfied) = some m) :
    m.Optimal shape satisfied := by
  rw [mostSpecific?_eq_argmax, ← Option.mem_def, List.mem_argmax_iff] at h
  obtain ⟨hmem, hmax, hfirst⟩ := h
  have heligible := mem_eligibleTests.1 hmem
  refine ⟨heligible, fun k hk => hmax k (mem_eligibleTests.2 hk), fun k hk hspec => ?_⟩
  -- among equals the loop keeps the first one of the filtered list, which is the first one of the
  -- catalog since filtering keeps the order
  have hidx := hfirst k (mem_eligibleTests.2 hk) (Nat.le_of_eq hspec.symm)
  rw [eligibleTests, candidates, List.filter_filter] at hidx
  refine idxOf_le_of_idxOf_filter_le _ _ ?_ hidx
  simpa using ⟨hk.required_subset, hk.appliesTo⟩

theorem mostSpecific?_eligibleTests_eq_none :
    mostSpecific? (eligibleTests shape satisfied) = none ↔
      ∀ k : TestMethod, ¬k.Eligible shape satisfied := by
  rw [mostSpecific?_eq_argmax, List.argmax_eq_none, List.eq_nil_iff_forall_not_mem]
  exact forall_congr' fun k => not_congr mem_eligibleTests

theorem Eligible.exists_optimal (h : m.Eligible shape satisfied) :
    ∃ k : TestMethod, k.Optimal shape satisfied := by
  cases hbest : mostSpecific? (eligibleTests shape satisfied) with
  | some k => exact ⟨k, optimal_of_mostSpecific? hbest⟩
  | none => exact absurd h (mostSpecific?_eligibleTests_eq_none.1 hbest m)

end TestMethod

/-! ### The choice -/

section Choice

variable {p : PairProperties α} {e : Evidence} {declared : AssumptionSet} {settings : Settings α}

/-- **What is chosen** is the best of the eligible tests or, if no test is eligible and the fallback
is enabled, the fallback. -/
theorem select_eq_ok_iff {s : Selection} :
    select p e declared settings = .ok s ↔
      (∃ m : TestMethod, m.Optimal p.shape (satisfiedSet settings.mode e declared) ∧
        s = .ofMethod settings.mode e declared m false) ∨
      ((∀ k : TestMethod, ¬k.Eligible p.shape (satisfiedSet settings.mode e declared)) ∧
        settings.bootstrap.enabled = true ∧
        s = .ofMethod settings.mode e declared .bootstrap true) := by
  cases h : mostSpecific? (eligibleTests p.shape (satisfiedSet settings.mode e declared)) with
  | some m =>
      have hm := TestMethod.optimal_of_mostSpecific? h
      rw [select, h]
      constructor
      · exact fun hs => .inl ⟨m, hm, (Except.ok.inj hs).symm⟩
      · rintro (⟨k, hk, rfl⟩ | ⟨hnone, -⟩)
        · exact hm.unique hk ▸ rfl
        · exact absurd hm.eligible (hnone m)
  | none =>
      have hnone := TestMethod.mostSpecific?_eligibleTests_eq_none.1 h
      rw [select, h]
      constructor
      · intro hs
        dsimp only at hs
        split at hs
        · exact .inr ⟨hnone, ‹_›, (Except.ok.inj hs).symm⟩
        · cases hs
      · rintro (⟨k, hk, -⟩ | ⟨-, henabled, rfl⟩)
        · exact absurd hk.eligible (hnone k)
        · exact if_pos henabled

/-- **Choosing fails** exactly if no test is eligible and the fallback is disabled. -/
theorem select_eq_error_iff {err : AnalysisError α} :
    select p e declared settings = .error err ↔
      (∀ k : TestMethod, ¬k.Eligible p.shape (satisfiedSet settings.mode e declared)) ∧
        settings.bootstrap.enabled = false ∧ err = .noCandidateTest p.names := by
  cases h : mostSpecific? (eligibleTests p.shape (satisfiedSet settings.mode e declared)) with
  | some m =>
      have hm := TestMethod.optimal_of_mostSpecific? h
      rw [select, h]
      constructor
      · exact fun herr => nomatch herr
      · exact fun ⟨hnone, _⟩ => absurd hm.eligible (hnone m)
  | none =>
      have hnone := TestMethod.mostSpecific?_eligibleTests_eq_none.1 h
      rw [select, h]
      cases henabled : settings.bootstrap.enabled with
      | true => simp
      | false =>
          constructor
          · exact fun herr => ⟨hnone, rfl, (Except.error.inj herr).symm⟩
          · rintro ⟨-, -, rfl⟩
            rfl

/-- Every choice is determined by its method. -/
theorem eq_ofMethod_of_select {s : Selection} (h : select p e declared settings = .ok s) :
    s = .ofMethod settings.mode e declared s.method s.fallback := by
  rcases select_eq_ok_iff.1 h with ⟨m, -, rfl⟩ | ⟨-, -, rfl⟩ <;> rfl

theorem required_subset_of_select {s : Selection} (h : select p e declared settings = .ok s) :
    s.method.required ⊆ satisfiedSet settings.mode e declared := by
  rcases select_eq_ok_iff.1 h with ⟨m, hm, rfl⟩ | ⟨-, -, rfl⟩
  · exact hm.eligible.required_subset
  · intro a ha
    simp [Selection.ofMethod, TestMethod.required] at ha

end Choice

/-- Overriding contradicted declarations takes nothing to hold that the data contradict. -/
theorem not_mem_violated_of_mem_satisfiedSet {e : Evidence} (he : e.Consistent)
    {declared : AssumptionSet} {a : Assumption} (ha : a ∈ satisfiedSet .strict e declared) :
    ¬a ∈ e.violated := by
  simp only [satisfiedSet, AssumptionSet.mem_union, AssumptionSet.mem_sdiff] at ha
  rcases ha with hholds | ⟨-, hviolated⟩
  · exact he a hholds
  · exact hviolated

theorem mem_holds_or_mem_declared {mode : Mode} {e : Evidence} {declared : AssumptionSet}
    {a : Assumption} (ha : a ∈ satisfiedSet mode e declared) : a ∈ e.holds ∨ a ∈ declared := by
  cases mode with
  | strict =>
      simp only [satisfiedSet, AssumptionSet.mem_union, AssumptionSet.mem_sdiff] at ha
      exact ha.imp_right And.left
  | relaxed => simpa [satisfiedSet] using ha

/-- **The chosen test is the best one that the assumptions allow.**  If some test of the catalog is
eligible, the best of them is chosen.  If none is, the fallback is chosen or, where it is disabled,
the choice fails, and it fails in no other case.  Where contradicted declarations are overridden,
nothing that the data contradict is taken to hold, so that every assumption behind the choice is
free of contradiction and either measured or declared. -/
theorem select_eq_best_or_fallback (p : PairProperties α)
    (records : List (AssumptionSet × Option Bool)) (declared : AssumptionSet)
    (settings : Settings α) :
    let e := Evidence.ofRecords records
    let satisfied := satisfiedSet settings.mode e declared
    ((∃ m : TestMethod, m.Eligible p.shape satisfied) →
      ∃ s, select p e declared settings = .ok s ∧ s.satisfied = satisfied ∧ s.fallback = false ∧
        s.method.Optimal p.shape satisfied) ∧
    ((∀ m : TestMethod, ¬m.Eligible p.shape satisfied) →
      (settings.bootstrap.enabled = true →
        ∃ s, select p e declared settings = .ok s ∧ s.satisfied = satisfied ∧ s.fallback = true ∧
          s.method = .bootstrap) ∧
      (settings.bootstrap.enabled = false →
        select p e declared settings = .error (.noCandidateTest p.names))) ∧
    (∀ err, select p e declared settings = .error err →
      (∀ m : TestMethod, ¬m.Eligible p.shape satisfied) ∧ settings.bootstrap.enabled = false ∧
        err = .noCandidateTest p.names) ∧
    (settings.mode = .strict →
      (∀ a, a ∈ satisfied → ¬a ∈ e.violated) ∧
      ∀ s, select p e declared settings = .ok s → ∀ a, a ∈ s.method.required →
        ¬a ∈ e.violated ∧ (a ∈ e.holds ∨ a ∈ declared)) := by
  intro e satisfied
  have hconsistent : e.Consistent := Evidence.consistent_ofRecords records
  refine ⟨fun ⟨k, hk⟩ => ?_, fun hnone => ⟨fun henabled => ?_, fun hdisabled => ?_⟩,
    fun err herr => select_eq_error_iff.1 herr, fun hstrict => ⟨fun a ha => ?_, fun s hs a ha => ?_⟩⟩
  · obtain ⟨m, hm⟩ := hk.exists_optimal
    exact ⟨_, select_eq_ok_iff.2 (.inl ⟨m, hm, rfl⟩), rfl, rfl, hm⟩
  · exact ⟨_, select_eq_ok_iff.2 (.inr ⟨hnone, henabled, rfl⟩), rfl, rfl, rfl⟩
  · exact select_eq_error_iff.2 ⟨hnone, hdisabled, rfl⟩
  · rw [show satisfied = _ from congrArg (satisfiedSet · e declared) hstrict] at ha
    exact not_mem_violated_of_mem_satisfiedSet hconsistent ha
  · have hmem := required_subset_of_select hs a ha
    rw [hstrict] at hmem
    exact ⟨not_mem_violated_of_mem_satisfiedSet hconsistent hmem, mem_holds_or_mem_declared hmem⟩

end StudyAnalysis
