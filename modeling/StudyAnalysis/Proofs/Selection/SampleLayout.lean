/-
**A test that applies to a comparison can be run on its samples.**

Samples are kept apart from the shape that a test is chosen by, and a test that meets samples of
another layout fails as unsuited.  This module says that no other failure of a test looks like that
one, and that samples which fit their shape are suited to every test that applies to it.

Main definitions:

* `StudyAnalysis.AcceptsLayout` — a computation does not fail because samples have the wrong layout;
* `StudyAnalysis.Samples.Fits` — **samples have the layout that a shape describes**.

Main results:

* `StudyAnalysis.AcceptsLayout.bind`, `StudyAnalysis.AcceptsLayout.forM` — the notion is closed
  under the ways in which tests are put together;
* `StudyAnalysis.AcceptsLayout.runTest` — a test that applies to a shape accepts all samples that
  fit it;
* `StudyAnalysis.execute_ne_unsuited` — running it as a step of an analysis does not fail as
  unsuited.
-/

import StudyAnalysis.Proofs.Selection.Optimal
import StudyAnalysis.Selection.Execution

set_option autoImplicit false
set_option relaxedAutoImplicit false

namespace StudyAnalysis

variable {α β γ : Type}

/-! ### Computations that accept a layout -/

/-- A computation does not fail because samples have the wrong layout. -/
def AcceptsLayout (x : Except SampleError β) : Prop :=
  ∀ m, x ≠ .error (.degenerate (.unsuited m))

namespace AcceptsLayout

theorem ok (b : β) : AcceptsLayout (.ok b : Except SampleError β) := by
  intro m h
  cases h

theorem error {err : SampleError} (h : ∀ m, err ≠ .degenerate (.unsuited m)) :
    AcceptsLayout (.error err : Except SampleError β) := by
  intro m heq
  exact h m (Except.error.inj heq)

theorem bind {x : Except SampleError β} {f : β → Except SampleError γ} (hx : AcceptsLayout x)
    (hf : ∀ b, AcceptsLayout (f b)) : AcceptsLayout (x >>= f) := by
  cases x with
  | ok b => exact hf b
  | error err =>
      intro m h
      exact hx m (congrArg Except.error (Except.error.inj h))

theorem throwIf {p : Prop} [Decidable p] {err : SampleError} {x : Except SampleError β}
    (herr : ∀ m, err ≠ .degenerate (.unsuited m)) (hx : AcceptsLayout x) :
    AcceptsLayout (if p then .error err else x) := by
  split
  · exact .error herr
  · exact hx

theorem forM {f : β → Except SampleError Unit} (hf : ∀ b, AcceptsLayout (f b)) (bs : List β) :
    AcceptsLayout (bs.forM f) := by
  induction bs with
  | nil => exact .ok ()
  | cons b bs ih => exact .bind (hf b) fun _ => ih

theorem require (xs : List β) (needed : Nat) : AcceptsLayout (StudyAnalysis.require xs needed) :=
  .throwIf (by simp) (.ok ())

theorem requireAligned (xs : List β) (ys : List γ) :
    AcceptsLayout (StudyAnalysis.requireAligned xs ys) := by
  unfold StudyAnalysis.requireAligned
  split
  · exact .ok ()
  · exact .error (by simp)

/-! ### Tests -/

section Tests

variable [Numeric α]

omit [Numeric α] in
theorem requireGroups (groups : List (List α)) :
    AcceptsLayout (StudyAnalysis.requireGroups groups) :=
  .bind (.require groups 2) fun _ => .forM (.require · 2) groups

theorem differences (x y : List α) : AcceptsLayout (StudyAnalysis.differences x y) :=
  .bind (.requireAligned x y) fun _ => .ok _

theorem correlation (x y : List α) : AcceptsLayout (StudyAnalysis.correlation x y) :=
  .throwIf (by simp) (.ok _)

theorem fisherExact (t : Fourfold) :
    AcceptsLayout (StudyAnalysis.fisherExact t : Except SampleError (TestOutput α)) := by
  rw [fisherExact_eq_ite]
  exact .throwIf (by simp) (.ok _)

variable [Tails α]

theorem studentTwoSided (t df : α) : AcceptsLayout (Tails.studentTwoSided t df) := by
  unfold Tails.studentTwoSided
  split
  · exact .ok _
  · exact .error (by simp)

theorem studentsT (a b : List α) : AcceptsLayout (StudyAnalysis.studentsT a b) :=
  .bind (.require a 2) fun _ => .bind (.require b 2) fun _ =>
    .throwIf (by simp) (.bind (.studentTwoSided _ _) fun _ => .ok _)

theorem welchT (a b : List α) : AcceptsLayout (StudyAnalysis.welchT a b) :=
  .bind (.require a 2) fun _ => .bind (.require b 2) fun _ =>
    .throwIf (by simp) (.bind (.studentTwoSided _ _) fun _ => .ok _)

theorem mannWhitneyU (a b : List α) : AcceptsLayout (StudyAnalysis.mannWhitneyU a b) :=
  .bind (.require a 2) fun _ => .bind (.require b 2) fun _ => .throwIf (by simp) (.ok _)

theorem pairedT (x y : List α) : AcceptsLayout (StudyAnalysis.pairedT x y) :=
  .bind (.differences x y) fun diffs => .bind (.require diffs 2) fun _ =>
    .throwIf (by simp) (.bind (.studentTwoSided _ _) fun _ => .ok _)

theorem wilcoxonSignedRank (x y : List α) :
    AcceptsLayout (StudyAnalysis.wilcoxonSignedRank x y) :=
  .bind (.bind (.differences x y) fun _ => .ok _) fun diffs => .bind (.require diffs 2) fun _ =>
    .throwIf (by simp) (.ok _)

theorem oneWayAnova (groups : List (List α)) : AcceptsLayout (StudyAnalysis.oneWayAnova groups) :=
  .bind (.requireGroups groups) fun _ => .throwIf (by simp) (.ok _)

theorem kruskalWallis (groups : List (List α)) :
    AcceptsLayout (StudyAnalysis.kruskalWallis groups) :=
  .bind (.requireGroups groups) fun _ => .throwIf (by simp) (.ok _)

theorem friedman (conditions : List (List α)) : AcceptsLayout (StudyAnalysis.friedman conditions) :=
  .bind (.require conditions 2) fun _ => .bind (.forM (.requireAligned _) conditions) fun _ =>
    .bind (.require _ 2) fun _ => .throwIf (by simp) (.ok _)

theorem correlationTest (r : α) (n : Nat) : AcceptsLayout (StudyAnalysis.correlationTest r n) := by
  unfold StudyAnalysis.correlationTest
  dsimp only
  split
  · exact .ok _
  · exact .bind (.studentTwoSided _ _) fun _ => .ok _

theorem pearson (x y : List α) : AcceptsLayout (StudyAnalysis.pearson x y) :=
  .bind (.requireAligned x y) fun _ => .bind (.require x 3) fun _ =>
    .bind (.correlation x y) fun r => .correlationTest r x.length

theorem spearman (x y : List α) : AcceptsLayout (StudyAnalysis.spearman x y) :=
  .bind (.requireAligned x y) fun _ => .bind (.require x 3) fun _ =>
    .bind (.correlation _ _) fun r => .correlationTest r x.length

theorem kendallTau (x y : List α) : AcceptsLayout (StudyAnalysis.kendallTau x y) :=
  .bind (.requireAligned x y) fun _ => .bind (.require x 3) fun _ => .throwIf (by simp) (.ok _)

theorem chiSquareIndependence (table : List (List α)) :
    AcceptsLayout (StudyAnalysis.chiSquareIndependence table) :=
  .throwIf (by simp) (.bind (.forM (fun row => .throwIf (by simp) (.ok ())) table) fun _ =>
    .throwIf (by simp) (.ok _))

end Tests

section Bootstrap

variable [Numeric α] {σ : Type}

theorem bootstrapIndependence (source : DrawSource σ) (start : σ) (x : List β) (y : List γ)
    (resamples : Nat) (statistic : List β → List γ → α) :
    AcceptsLayout (StudyAnalysis.bootstrapIndependence source start x y resamples statistic) :=
  .bind (.requireAligned x y) fun _ => .bind (.require x 2) fun _ => .throwIf (by simp) (.ok _)

theorem runBootstrap (source : DrawSource σ) (start : σ) (resamples : Nat) (samples : Samples α) :
    AcceptsLayout (StudyAnalysis.runBootstrap source start resamples samples) := by
  cases samples with
  | groups _ samples | paired _ samples =>
      exact .bind (.require samples 2) fun _ => bootstrapIndependence source start _ _ resamples _
  | bivariate x y => exact bootstrapIndependence source start x y resamples _
  | contingency _ _ table => exact bootstrapIndependence source start _ _ resamples _

end Bootstrap

end AcceptsLayout

/-! ### Samples that fit a shape -/

/-- Samples have the layout that a shape describes: as many samples as labels, of which related ones
are of one length; two variables of one length; or a table with a row and a column for every label.
-/
inductive Samples.Fits : Samples α → Shape → Prop
  | groups {labels : List String} {samples : List (List α)}
      (hlength : samples.length = labels.length) :
      Fits (.groups labels samples) (.groupComparison labels.length false)
  | paired {labels : List String} {samples : List (List α)} {n : Nat}
      (hlength : samples.length = labels.length) (haligned : ∀ s ∈ samples, s.length = n) :
      Fits (.paired labels samples) (.groupComparison labels.length true)
  | bivariate {x y : List α} (haligned : x.length = y.length) : Fits (.bivariate x y) .correlation
  | contingency {rows cols : List String} {table : List (List α)}
      (hrows : table.length = rows.length) (hcols : ∀ row ∈ table, row.length = cols.length) :
      Fits (.contingency rows cols table) (.contingency rows.length cols.length)

/-- Every label of a comparison of groups has a sample. -/
theorem Samples.Fits.length_eq {samples : Samples α} {shape : Shape} {labels : List String}
    {groups : List (List α)} (hfits : samples.Fits shape)
    (h : samples.groups? = some (labels, groups)) : groups.length = labels.length := by
  cases hfits with
  | groups hlength | paired hlength =>
      cases h
      exact hlength
  | bivariate | contingency => cases h

namespace TestMethod

variable {m : TestMethod} {n rows cols : Nat} {paired : Bool}

theorem two_independent_of_appliesTo (hm : m ∈ [studentsT, welchT, mannWhitneyU])
    (happlies : m.appliesTo (.groupComparison n paired) = true) : n = 2 ∧ paired = false := by
  simp only [List.mem_cons, List.not_mem_nil, or_false] at hm
  match n, paired with
  | 2, false => exact ⟨rfl, rfl⟩
  | 2, true | 0, _ | 1, _ | _ + 3, _ => rcases hm with rfl | rfl | rfl <;> cases happlies

theorem two_related_of_appliesTo (hm : m ∈ [pairedT, wilcoxonSignedRank])
    (happlies : m.appliesTo (.groupComparison n paired) = true) : n = 2 ∧ paired = true := by
  simp only [List.mem_cons, List.not_mem_nil, or_false] at hm
  match n, paired with
  | 2, true => exact ⟨rfl, rfl⟩
  | 2, false | 0, _ | 1, _ | _ + 3, _ => rcases hm with rfl | rfl <;> cases happlies

theorem rows_and_cols_of_appliesTo
    (happlies : fisherExact.appliesTo (.contingency rows cols) = true) :
    rows = 2 ∧ cols = 2 := by
  match rows, cols with
  | 2, 2 => exact ⟨rfl, rfl⟩
  | 0, _ | 1, _ | _ + 3, _ | 2, 0 | 2, 1 | 2, _ + 3 => cases happlies

end TestMethod

namespace AcceptsLayout

/-! ### Tests on samples that fit -/

theorem twoSamples {samples : List (List α)} (h : samples.length = 2) (m : TestMethod) :
    AcceptsLayout (StudyAnalysis.twoSamples m samples) := by
  obtain ⟨a, b, rfl⟩ := List.length_eq_two.1 h
  exact .ok (a, b)

variable [Numeric α]

theorem fourfold {table : List (List α)} (hrows : table.length = 2)
    (hcols : ∀ row ∈ table, row.length = 2) (m : TestMethod) :
    AcceptsLayout (StudyAnalysis.fourfold m table) := by
  obtain ⟨upper, lower, rfl⟩ := List.length_eq_two.1 hrows
  obtain ⟨a, b, rfl⟩ := List.length_eq_two.1 (hcols upper (by simp))
  obtain ⟨c, d, rfl⟩ := List.length_eq_two.1 (hcols lower (by simp))
  exact .ok _

/-- **A test that applies to a shape accepts all samples that fit it.** -/
theorem runTest [Tails α] {σ : Type} {samples : Samples α} {shape : Shape} {method : TestMethod}
    (hfits : samples.Fits shape) (happlies : method.appliesTo shape = true)
    (source : DrawSource σ) (start : σ) (resamples : Nat) :
    AcceptsLayout (StudyAnalysis.runTest source start resamples method samples) := by
  cases hfits with
  | @groups labels samples hlength =>
      -- a test of two samples applies to two labels only, so that it finds its two samples
      have htwo (hm : method ∈ [.studentsT, .welchT, .mannWhitneyU]) : samples.length = 2 :=
        hlength.trans (TestMethod.two_independent_of_appliesTo hm happlies).1
      cases method with
      | studentsT =>
          exact .bind (.twoSamples (htwo (by simp)) _) fun p => .bind (.studentsT p.1 p.2) fun _ =>
            .ok _
      | welchT =>
          exact .bind (.twoSamples (htwo (by simp)) _) fun p => .bind (.welchT p.1 p.2) fun _ =>
            .ok _
      | mannWhitneyU =>
          exact .bind (.twoSamples (htwo (by simp)) _) fun p =>
            .bind (.mannWhitneyU p.1 p.2) fun _ => .ok _
      | pairedT | wilcoxonSignedRank =>
          cases (TestMethod.two_related_of_appliesTo (by simp) happlies).2
      | oneWayAnova => exact .bind (.oneWayAnova samples) fun _ => .ok _
      | kruskalWallis => exact .bind (.kruskalWallis samples) fun _ => .ok _
      | bootstrap => exact .bind (.runBootstrap source start resamples _) fun _ => .ok _
      | friedman | pearson | spearman | kendallTau | chiSquare | fisherExact => cases happlies
  | @paired labels samples _ hlength _ =>
      have htwo (hm : method ∈ [.pairedT, .wilcoxonSignedRank]) : samples.length = 2 :=
        hlength.trans (TestMethod.two_related_of_appliesTo hm happlies).1
      cases method with
      | pairedT =>
          exact .bind (.twoSamples (htwo (by simp)) _) fun p => .bind (.pairedT p.1 p.2) fun _ =>
            .ok _
      | wilcoxonSignedRank =>
          exact .bind (.twoSamples (htwo (by simp)) _) fun p =>
            .bind (.wilcoxonSignedRank p.1 p.2) fun _ => .ok _
      | studentsT | welchT | mannWhitneyU =>
          cases (TestMethod.two_independent_of_appliesTo (by simp) happlies).2
      | friedman => exact .bind (.friedman samples) fun _ => .ok _
      | bootstrap => exact .bind (.runBootstrap source start resamples _) fun _ => .ok _
      | oneWayAnova | kruskalWallis | pearson | spearman | kendallTau | chiSquare | fisherExact =>
          cases happlies
  | @bivariate x y _ =>
      cases method with
      | pearson => exact .bind (.pearson x y) fun _ => .ok _
      | spearman => exact .bind (.spearman x y) fun _ => .ok _
      | kendallTau => exact .bind (.kendallTau x y) fun _ => .ok _
      | bootstrap => exact .bind (.runBootstrap source start resamples _) fun _ => .ok _
      | _ => cases happlies
  | @contingency rows cols table hrows hcols =>
      cases method with
      | chiSquare => exact .bind (.chiSquareIndependence table) fun _ => .ok _
      | fisherExact =>
          obtain ⟨htwo, htwo'⟩ := TestMethod.rows_and_cols_of_appliesTo happlies
          have hcols' : ∀ row ∈ table, row.length = 2 := fun row hrow =>
            (hcols row hrow).trans htwo'
          exact .bind (.fourfold (hrows.trans htwo) hcols' _) fun t =>
            .bind (.fisherExact t) fun _ => .ok _
      | bootstrap => exact .bind (.runBootstrap source start resamples _) fun _ => .ok _
      | _ => cases happlies

end AcceptsLayout

/-! ### Steps of an analysis -/

/-- What is chosen for a comparison applies to its shape. -/
theorem appliesTo_of_select {p : PairProperties α} {e : Evidence} {declared : AssumptionSet}
    {settings : Settings α} {s : Selection} (h : select p e declared settings = .ok s) :
    s.method.appliesTo p.shape = true := by
  rcases select_eq_ok_iff.1 h with ⟨m, hm, rfl⟩ | ⟨-, -, rfl⟩
  · exact hm.eligible.appliesTo
  · rfl

variable [Numeric α]

/-- **Running a test that applies does not fail as unsuited.** -/
theorem execute_ne_unsuited [Tails α] {samples : Samples α} {shape : Shape} {method : TestMethod}
    (hfits : samples.Fits shape) (happlies : method.appliesTo shape = true)
    (settings : Settings α) (m m' : TestMethod) :
    execute method samples settings ≠ .error (.testFailed m (.degenerate (.unsuited m'))) := by
  intro h
  have haccepts := AcceptsLayout.runTest hfits happlies ChaCha.source
    (ChaCha.Stream.ofSeed settings.bootstrap.seed.toUInt64) settings.bootstrap.resamples
  rw [execute] at h
  cases hrun : StudyAnalysis.runTest ChaCha.source
      (ChaCha.Stream.ofSeed settings.bootstrap.seed.toUInt64) settings.bootstrap.resamples method
      samples with
  | ok x =>
      rw [hrun] at h
      cases h
  | error err =>
      rw [hrun] at h
      cases h
      exact haccepts m' hrun

end StudyAnalysis
