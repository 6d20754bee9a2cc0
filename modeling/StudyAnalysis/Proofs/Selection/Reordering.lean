/-
**Tests on reordered samples.**

The samples of a comparison come in the order of labels.  Another order of the labels reorders the
groups, and the rows and columns of a table; it may reorder the participants of related groups, too,
since these are listed as the first group has them.  This module collects what all of that means to
the tests: every test but the resampling fallback gives the same p-value and the same degrees of
freedom, and the fallback, whose draws depend on the order, still succeeds.

Main definitions:

* `StudyAnalysis.Exact.Reordered` — samples that differ in the order of labels and participants;
* `StudyAnalysis.Exact.verdict` — what a test says apart from its statistic and effect sizes.

Main results:

* `StudyAnalysis.Exact.answer_twoSamples` — a test of two samples that may be exchanged;
* `StudyAnalysis.Exact.exists_runBootstrap_iff` — the fallback looks at sizes to see whether it can
  be run;
* `StudyAnalysis.Exact.verdict_runTest`, `StudyAnalysis.Exact.exists_runTest` — **tests do not depend
  on the order of labels**.
-/

import StudyAnalysis.Proofs.Statistics.ExactTest
import StudyAnalysis.Proofs.Statistics.Resampling
import StudyAnalysis.Proofs.Statistics.Tables
import StudyAnalysis.Selection.Execution

set_option autoImplicit false
set_option relaxedAutoImplicit false

namespace StudyAnalysis.Exact

open Numeric Fallible

/-! ### Samples in another order -/

/-- The same samples with their labels in another order.  The sample of a label, the value of a
participant under a label and the count of a pair of labels are the same in both; related groups may
list their participants in another order. -/
inductive Reordered : Samples ℝ → Samples ℝ → Prop
  | groups {labels labels' : List String} (hlabels : labels.Perm labels')
      (sample : String → List ℝ) :
      Reordered (.groups labels (labels.map sample)) (.groups labels' (labels'.map sample))
  | paired {β : Type} {labels labels' : List String} {ids ids' : List β}
      (hlabels : labels.Perm labels') (hids : ids.Perm ids') (value : String → β → ℝ) :
      Reordered (.paired labels (tabulate value labels ids))
        (.paired labels' (tabulate value labels' ids'))
  | bivariate (x y : List ℝ) : Reordered (.bivariate x y) (.bivariate x y)
  | contingency {rows rows' cols cols' : List String} (hrows : rows.Perm rows')
      (hcols : cols.Perm cols') (n : String → String → ℕ) :
      Reordered (.contingency rows cols (tabulate (fun r c => (n r c : ℝ)) rows cols))
        (.contingency rows' cols' (tabulate (fun r c => (n r c : ℝ)) rows' cols'))

/-- The p-value and the degrees of freedom of a test that was run; nothing if it cannot be run. -/
def verdict (x : Except SampleError (Execution ℝ)) : Option (ℝ × Option ℝ) :=
  answer (x.map (·.output))

/-- An effect size does not change what a test says. -/
theorem verdict_ofEffect (t : Except SampleError (TestOutput ℝ)) (name : String)
    (size : TestOutput ℝ → ℝ) :
    verdict (do let out ← t; return .ofEffect out name (size out)) = answer t := by
  cases t <;> rfl

/-- Neither does one that also looks at what the test was run on. -/
theorem verdict_bind_ofEffect {β : Type} (x : Except SampleError β)
    (test : β → Except SampleError (TestOutput ℝ)) (name : String) (size : β → TestOutput ℝ → ℝ) :
    verdict (do let b ← x; let out ← test b; return .ofEffect out name (size b out)) =
      answer (do let b ← x; test b) := by
  cases x with
  | error err => rfl
  | ok b => exact verdict_ofEffect (test b) name (size b)

theorem answer_eq_of_toOption {x y : Except SampleError (TestOutput ℝ)}
    (h : x.toOption = y.toOption) : answer x = answer y := by
  rw [answer, answer, h]

/-! ### Tests of two samples -/

section TwoSamples

variable {labels labels' : List String} {method : TestMethod}

theorem twoSamples_of_length {samples : List (List ℝ)} (h : samples.length ≠ 2) :
    twoSamples method samples = .error (.degenerate (.unsuited method)) := by
  match samples with
  | [] | [_] | _ :: _ :: _ :: _ => rfl
  | [_, _] => exact absurd rfl h

/-- Two labels are in the one or in the other order. -/
theorem pair_of_perm {β : Type} {xs xs' : List β} (h : xs.Perm xs') (hlength : xs.length = 2) :
    ∃ a b, xs = [a, b] ∧ (xs' = [a, b] ∨ xs' = [b, a]) := by
  obtain ⟨a, b, rfl⟩ := List.length_eq_two.1 hlength
  refine ⟨a, b, rfl, ?_⟩
  obtain ⟨c, d, rfl⟩ := List.length_eq_two.1 (h.length_eq.symm.trans hlength)
  rcases List.mem_pair.1 (h.mem_iff.1 List.mem_cons_self) with rfl | rfl
  · have hb : [b].Perm [d] := h.cons_inv
    exact .inl (by rw [List.singleton_perm_singleton.1 hb])
  · have hb : [b].Perm [c] := (h.trans (List.Perm.swap a c [])).cons_inv
    exact .inr (by rw [List.singleton_perm_singleton.1 hb])

/-- **A test of two samples that may be exchanged** does not depend on the order of their labels. -/
theorem answer_twoSamples (hlabels : labels.Perm labels')
    {test : List ℝ → List ℝ → Except SampleError (TestOutput ℝ)} {sample sample' : String → List ℝ}
    (hsame : ∀ a b, answer (test (sample' a) (sample' b)) = answer (test (sample a) (sample b)))
    (hswap : ∀ a b, answer (test (sample' b) (sample' a)) = answer (test (sample a) (sample b))) :
    answer (do let p ← twoSamples method (labels'.map sample'); test p.1 p.2) =
      answer (do let p ← twoSamples method (labels.map sample); test p.1 p.2) := by
  by_cases hlength : labels.length = 2
  · obtain ⟨a, b, rfl, rfl | rfl⟩ := pair_of_perm hlabels hlength
    · exact hsame a b
    · exact hswap a b
  · have hlength' : labels'.length ≠ 2 := by rwa [← hlabels.length_eq]
    rw [twoSamples_of_length (by rwa [List.length_map]),
      twoSamples_of_length (by rwa [List.length_map])]

end TwoSamples

/-! ### Related groups -/

section Related

variable {β : Type} (value : String → β → ℝ) {ids ids' : List β}

/-- The differences of two related groups, participant by participant. -/
theorem differences_map (f g : β → ℝ) (ids : List β) :
    differences (ids.map f) (ids.map g) = .ok (ids.map fun id => f id - g id) := by
  rw [differences_eq (by rw [List.length_map, List.length_map]), pairedDifferences,
    List.zipWith_map, List.zipWith_self]

theorem sameUpToSign_of_perm (hids : ids.Perm ids') (f g : β → ℝ) :
    SameUpToSign (ids.map fun id => f id - g id) (ids'.map fun id => f id - g id) :=
  .inl (hids.symm.map _)

theorem sameUpToSign_swap (hids : ids.Perm ids') (f g : β → ℝ) :
    SameUpToSign (ids.map fun id => f id - g id) (ids'.map fun id => g id - f id) := by
  refine .inr ((hids.symm.map _).trans (List.Perm.of_eq ?_))
  rw [List.map_map]
  exact List.map_congr_left fun id _ => (neg_sub _ _).symm

/-- **A test of the differences of two related groups**, up to their order and their common sign, does
not depend on the order of the labels and of the participants. -/
theorem answer_twoSamples_differences {labels labels' : List String} {method : TestMethod}
    {test : List ℝ → List ℝ → Except SampleError (TestOutput ℝ)}
    (htest : ∀ {x y x' y' ds ds' : List ℝ}, differences x y = .ok ds → differences x' y' = .ok ds' →
      SameUpToSign ds ds' → answer (test x' y') = answer (test x y))
    (hlabels : labels.Perm labels') (hids : ids.Perm ids') :
    answer (do let p ← twoSamples method (tabulate value labels' ids'); test p.1 p.2) =
      answer (do let p ← twoSamples method (tabulate value labels ids); test p.1 p.2) := by
  refine answer_twoSamples hlabels (fun a b => ?_) fun a b => ?_
  · exact htest (differences_map _ _ _) (differences_map _ _ _)
      (sameUpToSign_of_perm hids (value a) (value b))
  · exact htest (differences_map _ _ _) (differences_map _ _ _)
      (sameUpToSign_swap hids (value a) (value b))

end Related

/-! ### Tables of two rows and two columns -/

section Fourfold

variable {rows rows' cols cols' : List String} {method : TestMethod}

theorem fourfold_pair (n : String → String → ℕ) (a b c d : String) :
    fourfold method (tabulate (fun r c => (n r c : ℝ)) [a, b] [c, d]) =
      .ok ⟨n a c, n a d, n b c, n b d⟩ := by
  simp only [tabulate, List.map_cons, List.map_nil, fourfold, toNat_natCast]

theorem fourfold_of_length {table : List (List ℝ)}
    (h : ¬ (table.length = 2 ∧ ∀ row ∈ table, row.length = 2)) :
    fourfold method table = .error (.degenerate (.unsuited method)) := by
  rw [fourfold]
  rintro a b c d rfl
  exact h ⟨rfl, by simp⟩

/-- **The exact test does not depend on the order of rows and columns.** -/
theorem answer_fourfold (hrows : rows.Perm rows') (hcols : cols.Perm cols')
    (n : String → String → ℕ) :
    answer (do
      let t ← fourfold method (tabulate (fun r c => (n r c : ℝ)) rows' cols'); fisherExact t) =
      answer (do
        let t ← fourfold method (tabulate (fun r c => (n r c : ℝ)) rows cols); fisherExact t) := by
  by_cases hlength : rows.length = 2 ∧ cols.length = 2
  · obtain ⟨a, b, rfl, hrows'⟩ := pair_of_perm hrows hlength.1
    obtain ⟨c, d, rfl, hcols'⟩ := pair_of_perm hcols hlength.2
    have hswapRows := answer_fisherExact_swapRows ⟨n a c, n a d, n b c, n b d⟩
    have hswapCols := answer_fisherExact_swapCols ⟨n a c, n a d, n b c, n b d⟩
    have hswapBoth := answer_fisherExact_swapCols ⟨n b c, n b d, n a c, n a d⟩
    rcases hrows' with rfl | rfl <;> rcases hcols' with rfl | rfl <;> simp only [fourfold_pair]
    · exact hswapCols
    · exact hswapRows
    · exact hswapBoth.trans hswapRows
  · have hshape : ∀ {rows cols : List String}, ¬ (rows.length = 2 ∧ cols.length = 2) →
        fourfold method (tabulate (fun r c => (n r c : ℝ)) rows cols) =
          .error (.degenerate (.unsuited method)) := by
      intro rows cols hlength
      refine fourfold_of_length fun h => hlength ?_
      rw [tabulate, List.length_map, List.forall_mem_map] at h
      obtain ⟨row, rest, rfl⟩ := List.exists_cons_of_length_eq_add_one h.1
      exact ⟨h.1, by simpa using h.2 row List.mem_cons_self⟩
    rw [hshape hlength, hshape (by rwa [← hrows.length_eq, ← hcols.length_eq])]

end Fourfold

/-! ### The resampling fallback -/

section Bootstrap

variable {σ : Type} {source : DrawSource σ} {start : σ} {resamples : ℕ}

theorem exists_bootstrapIndependence_iff {β γ : Type} {x : List β} {y : List γ}
    {statistic : List β → List γ → ℝ} :
    (∃ out, bootstrapIndependence source start x y resamples statistic = .ok out) ↔
      x.length = y.length ∧ 2 ≤ x.length ∧ resamples ≠ 0 := by
  simp only [bootstrapIndependence_eq_ok_iff, exists_and_left, exists_eq, and_true]

theorem sum_map_zipIdx {β : Type} (f : β → ℕ) (xs : List β) :
    (xs.zipIdx.map fun e => f e.1).sum = (xs.map f).sum := by
  conv_rhs => rw [← List.zipIdx_map_fst 0 xs, List.map_map]
  rfl

theorem length_codedValues (samples : List (List ℝ)) :
    (codedValues samples).length = samples.flatten.length := by
  rw [codedValues, List.length_flatMap, List.length_flatten]
  simp only [List.length_map]
  exact sum_map_zipIdx List.length samples

/-- A table is expanded to as many pairs as it counts observations. -/
theorem length_expandTable (table : List (List ℝ)) :
    (expandTable table).length = (table.flatten.map Numeric.toNat).sum := by
  rw [expandTable, List.length_flatMap, List.map_flatten, List.sum_flatten, List.map_map]
  refine .trans (congrArg List.sum (List.map_congr_left fun e _ => ?_))
    (sum_map_zipIdx (List.sum ∘ List.map Numeric.toNat) table)
  rw [List.length_flatMap]
  simp only [List.length_replicate]
  exact sum_map_zipIdx Numeric.toNat e.1

/-- The fallback on groups needs two groups and two values in all. -/
theorem exists_bootstrapGroups_iff {labels : List String} {samples : List (List ℝ)} :
    (∃ out, runBootstrap source start resamples (.groups labels samples) = .ok out) ↔
      2 ≤ samples.length ∧ 2 ≤ samples.flatten.length ∧ resamples ≠ 0 := by
  have hvalues : (∃ out, bootstrapIndependence source start ((codedValues samples).map (·.1))
      ((codedValues samples).map (·.2)) resamples codedBetween = .ok out) ↔
      2 ≤ samples.flatten.length ∧ resamples ≠ 0 := by
    simp only [exists_bootstrapIndependence_iff, List.length_map, length_codedValues, true_and]
  rw [← hvalues, ← require_eq_ok_iff]
  constructor
  · rintro ⟨out, h⟩
    obtain ⟨_, hgroups, h⟩ := bind_eq_ok_iff.1 h
    exact ⟨hgroups, out, h⟩
  · rintro ⟨hgroups, out, h⟩
    exact ⟨out, bind_eq_ok_iff.2 ⟨(), hgroups, h⟩⟩

/-- The fallback on a table needs two observations. -/
theorem exists_bootstrapTable_iff {rows cols : List String} {table : List (List ℝ)} :
    (∃ out, runBootstrap source start resamples (.contingency rows cols table) = .ok out) ↔
      2 ≤ (table.flatten.map Numeric.toNat).sum ∧ resamples ≠ 0 := by
  simp only [runBootstrap, exists_bootstrapIndependence_iff, List.length_map, length_expandTable,
    true_and]

/-- **The fallback looks at sizes only** to see whether it can be run. -/
theorem exists_runBootstrap_iff {s s' : Samples ℝ} (h : Reordered s s') :
    (∃ out, runBootstrap source start resamples s = .ok out) ↔
      ∃ out, runBootstrap source start resamples s' = .ok out := by
  have hgroups : ∀ {samples samples' : List (List ℝ)}, Regrouped samples samples' →
      (2 ≤ samples.length ∧ 2 ≤ samples.flatten.length ∧ resamples ≠ 0 ↔
        2 ≤ samples'.length ∧ 2 ≤ samples'.flatten.length ∧ resamples ≠ 0) := by
    intro samples samples' hregrouped
    rw [hregrouped.length_eq, hregrouped.flatten_perm.length_eq]
  cases h with
  | groups hlabels sample =>
      rw [exists_bootstrapGroups_iff, exists_bootstrapGroups_iff]
      exact hgroups (Regrouped.of_perm (hlabels.map sample))
  | paired hlabels hids value =>
      -- the fallback does not tell related groups from independent ones
      show (∃ out, runBootstrap source start resamples (.groups [] _) = .ok out) ↔
        ∃ out, runBootstrap source start resamples (.groups [] _) = .ok out
      rw [exists_bootstrapGroups_iff, exists_bootstrapGroups_iff]
      exact hgroups (Regrouped.tabulate value hlabels hids)
  | bivariate x y => exact Iff.rfl
  | contingency hrows hcols n =>
      have hperm := (Regrouped.tabulate (fun r c => (n r c : ℝ)) hrows hcols).flatten_perm
      rw [exists_bootstrapTable_iff, exists_bootstrapTable_iff, (hperm.map Numeric.toNat).sum_eq]

theorem df_of_bootstrapIndependence {β γ : Type} {x : List β} {y : List γ}
    {statistic : List β → List γ → ℝ} {out : TestOutput ℝ}
    (h : bootstrapIndependence source start x y resamples statistic = .ok out) : out.df = none := by
  obtain ⟨-, rfl⟩ := bootstrapIndependence_eq_ok_iff.1 h
  rfl

/-- The fallback has no degrees of freedom. -/
theorem df_of_runBootstrap {s : Samples ℝ} {out : TestOutput ℝ}
    (h : runBootstrap source start resamples s = .ok out) : out.df = none := by
  cases s with
  | groups labels samples | paired labels samples =>
      obtain ⟨_, -, h⟩ := bind_eq_ok_iff.1 h
      exact df_of_bootstrapIndependence h
  | bivariate x y | contingency rows cols table => exact df_of_bootstrapIndependence h

end Bootstrap

/-! ### All tests -/

section RunTest

variable [Tails ℝ] {σ : Type} {source : DrawSource σ} {start : σ} {resamples : ℕ}

/-- **Tests do not depend on the order of labels**, the fallback apart. -/
theorem verdict_runTest {method : TestMethod} (hmethod : method ≠ .bootstrap) {s s' : Samples ℝ}
    (h : Reordered s s') : verdict (runTest source start resamples method s') =
      verdict (runTest source start resamples method s) := by
  cases h with
  | groups hlabels sample =>
      have hregrouped := Regrouped.of_perm (hlabels.map sample)
      cases method with
      | studentsT =>
          simp only [runTest, verdict_bind_ofEffect]
          exact answer_twoSamples hlabels (fun a b => rfl)
            fun a b => answer_studentsT_comm (sample a) (sample b)
      | welchT =>
          simp only [runTest, verdict_bind_ofEffect]
          exact answer_twoSamples hlabels (fun a b => rfl)
            fun a b => answer_welchT_comm (sample a) (sample b)
      | mannWhitneyU =>
          simp only [runTest, verdict_bind_ofEffect]
          exact answer_twoSamples hlabels (fun a b => rfl)
            fun a b => answer_mannWhitneyU_comm (sample a) (sample b)
      | oneWayAnova =>
          simp only [runTest, verdict_ofEffect]
          exact answer_eq_of_toOption (oneWayAnova_eq_of_regrouped hregrouped).symm
      | kruskalWallis =>
          simp only [runTest, verdict_ofEffect]
          exact answer_eq_of_toOption (kruskalWallis_eq_of_regrouped hregrouped).symm
      | bootstrap => exact absurd rfl hmethod
      | _ => rfl
  | paired hlabels hids value =>
      cases method with
      | pairedT =>
          simp only [runTest, verdict_bind_ofEffect]
          exact answer_twoSamples_differences value answer_pairedT_eq hlabels hids
      | wilcoxonSignedRank =>
          simp only [runTest, verdict_bind_ofEffect]
          exact answer_twoSamples_differences value answer_wilcoxonSignedRank_eq hlabels hids
      | friedman =>
          simp only [runTest, verdict_ofEffect]
          exact answer_eq_of_toOption (friedman_eq_of_perm value hlabels hids).symm
      | bootstrap => exact absurd rfl hmethod
      | _ => rfl
  | bivariate x y => rfl
  | contingency hrows hcols n =>
      cases method with
      | chiSquare =>
          simp only [runTest, verdict_ofEffect]
          rw [chiSquareIndependence_eq_of_perm _ hrows hcols]
      | fisherExact =>
          simp only [runTest, verdict_bind_ofEffect]
          exact answer_fourfold hrows hcols n
      | bootstrap => exact absurd rfl hmethod
      | _ => rfl

theorem runTest_bootstrap (s : Samples ℝ) : runTest source start resamples .bootstrap s =
    (runBootstrap source start resamples s).map fun out => ⟨out, ∅⟩ := by
  cases s <;> rfl

/-- **A test that can be run on samples can be run on them in another order**, with the same answer
unless it is the fallback. -/
theorem exists_runTest {method : TestMethod} {s s' : Samples ℝ} (h : Reordered s s')
    {x : Execution ℝ} (hrun : runTest source start resamples method s = .ok x) :
    ∃ x', runTest source start resamples method s' = .ok x' ∧ x'.output.df = x.output.df ∧
      (method ≠ .bootstrap → x'.output.pValue = x.output.pValue) := by
  by_cases hmethod : method = .bootstrap
  · subst hmethod
    rw [runTest_bootstrap] at hrun ⊢
    obtain ⟨out, hout, rfl⟩ := map_eq_ok_iff.1 hrun
    obtain ⟨out', hout'⟩ := (exists_runBootstrap_iff h).1 ⟨out, hout⟩
    refine ⟨⟨out', ∅⟩, map_eq_ok_iff.2 ⟨out', hout', rfl⟩, ?_, fun hne => absurd rfl hne⟩
    exact (df_of_runBootstrap hout').trans (df_of_runBootstrap hout).symm
  · have hverdict : verdict (runTest source start resamples method s') =
        verdict (runTest source start resamples method s) := verdict_runTest hmethod h
    rw [hrun] at hverdict
    cases hrun' : runTest source start resamples method s' with
    | error err =>
        rw [hrun'] at hverdict
        cases hverdict
    | ok x' =>
        rw [hrun'] at hverdict
        have hpair : (x'.output.pValue, x'.output.df) = (x.output.pValue, x.output.df) :=
          Option.some.inj hverdict
        exact ⟨x', rfl, congrArg Prod.snd hpair, fun _ => congrArg Prod.fst hpair⟩

end RunTest

end StudyAnalysis.Exact
