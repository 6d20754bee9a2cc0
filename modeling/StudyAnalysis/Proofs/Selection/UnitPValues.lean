/-
**Every p-value lies in the unit interval.**

The tails of the reference distributions are approximated, and a sum of probabilities is rounded, so
that a p-value may be computed as slightly less than zero or more than one.  Every test moves it back
before it answers.  Nothing is known here about a p-value that is undefined, but it is not outside of
the unit interval either.

Main definitions:

* `StudyAnalysis.InUnit` — a number is not outside of the unit interval;
* `StudyAnalysis.Yields` — whatever a computation yields has a property.

Main results:

* `StudyAnalysis.AnswersInUnit.clamped` — what is moved into the unit interval lies in it;
* `StudyAnalysis.runsInUnit_runTest` — **every test answers a p-value in the unit interval**,
  whatever the samples are.
-/

import StudyAnalysis.Proofs.Fallible
import StudyAnalysis.Proofs.Number.Quotients
import StudyAnalysis.Selection.Execution

set_option autoImplicit false
set_option relaxedAutoImplicit false

namespace StudyAnalysis

open Fallible

variable {α β γ : Type}

/-! ### What a computation yields -/

/-- Whatever a computation yields has a property. -/
def Yields (P : β → Prop) (x : Except SampleError β) : Prop :=
  ∀ b, x = .ok b → P b

namespace Yields

variable {P : γ → Prop}

theorem ok {c : γ} (h : P c) : Yields P (.ok c) := by
  intro b hb
  obtain rfl := Except.ok.inj hb
  exact h

theorem error (err : SampleError) : Yields P (.error err) := by
  intro c h
  cases h

theorem bind {x : Except SampleError β} {f : β → Except SampleError γ}
    (hf : ∀ b, Yields P (f b)) : Yields P (x >>= f) := by
  intro c h
  obtain ⟨b, -, hc⟩ := bind_eq_ok_iff.1 h
  exact hf b c hc

theorem throwIf {p : Prop} [Decidable p] {err : SampleError} {x : Except SampleError γ}
    (hx : Yields P x) : Yields P (if p then .error err else x) := by
  split
  · exact .error err
  · exact hx

end Yields

/-! ### The unit interval -/

variable [Numeric α]

/-- A number is not outside of the unit interval. -/
def InUnit (p : α) : Prop :=
  ¬ p < 0 ∧ ¬ 1 < p

theorem SignFaithful.lt_irrefl [SignFaithful α] (x : α) : ¬ x < x :=
  fun h => lt_asymm h h

open SignFaithful in
theorem inUnit_clamp [SignFaithful α] [CountDivision α] (p : α) :
    InUnit (Numeric.clamp 0 1 p) := by
  have hone : ¬ (1 : α) < 0 := lt_asymm CountDivision.zero_lt_one
  unfold Numeric.clamp
  split
  · exact ⟨lt_irrefl 0, hone⟩
  · split
    · exact ⟨hone, lt_irrefl 1⟩
    · exact ⟨‹_›, ‹_›⟩

/-- A half of a number in the unit interval is in it, too. -/
theorem InUnit.half [CountDivision α] {p : α} (h : InUnit p) : InUnit (p / 2) :=
  ⟨fun hneg => h.1 (CountDivision.neg_of_div two_pos hneg),
    fun habove => h.2 (CountDivision.lt_of_lt_div h.1 two_pos habove)⟩

/-! ### Tests -/

/-- Whatever a test answers has a p-value in the unit interval. -/
def AnswersInUnit (x : Except SampleError (TestOutput α)) : Prop :=
  Yields (fun out => InUnit out.pValue) x

/-- Whatever a test with an effect size answers has a p-value in the unit interval. -/
def RunsInUnit (x : Except SampleError (Execution α)) : Prop :=
  Yields (fun run => InUnit run.output.pValue) x

theorem AnswersInUnit.withEffect {x : Except SampleError (TestOutput α)} (h : AnswersInUnit x)
    {run : TestOutput α → Execution α} (hrun : ∀ out, (run out).output = out) :
    RunsInUnit (x >>= fun out => pure (run out)) := by
  intro r hr
  obtain ⟨out, hout, hr⟩ := bind_eq_ok_iff.1 hr
  obtain rfl := Except.ok.inj hr
  rw [hrun]
  exact h out hout

namespace AnswersInUnit

variable [SignFaithful α] [CountDivision α]

/-- **A clamped p-value is in the unit interval.** -/
theorem clamped (statistic p : α) (df : Option α) :
    AnswersInUnit (.ok (.clamped statistic p df)) :=
  .ok (inUnit_clamp p)

theorem fisherExact (t : Fourfold) :
    AnswersInUnit (StudyAnalysis.fisherExact t : Except SampleError (TestOutput α)) := by
  rw [fisherExact_eq_ite]
  exact .throwIf (clamped _ _ _)

section Bootstrap

variable {σ : Type} (source : DrawSource σ) (start : σ) (resamples : Nat)

theorem bootstrapIndependence (x : List β) (y : List γ) (statistic : List β → List γ → α) :
    AnswersInUnit (StudyAnalysis.bootstrapIndependence source start x y resamples statistic) :=
  .bind fun _ => .bind fun _ => .throwIf (clamped _ _ _)

theorem runBootstrap (samples : Samples α) :
    AnswersInUnit (StudyAnalysis.runBootstrap source start resamples samples) := by
  cases samples with
  | groups _ samples | paired _ samples =>
      exact .bind fun _ => bootstrapIndependence source start resamples _ _ _
  | bivariate x y => exact bootstrapIndependence source start resamples x y _
  | contingency _ _ table => exact bootstrapIndependence source start resamples _ _ _

end Bootstrap

variable [Tails α]

theorem studentsT (a b : List α) : AnswersInUnit (StudyAnalysis.studentsT a b) :=
  .bind fun _ => .bind fun _ => .throwIf (.bind fun _ => clamped _ _ _)

theorem welchT (a b : List α) : AnswersInUnit (StudyAnalysis.welchT a b) :=
  .bind fun _ => .bind fun _ => .throwIf (.bind fun _ => clamped _ _ _)

theorem pairedT (x y : List α) : AnswersInUnit (StudyAnalysis.pairedT x y) :=
  .bind fun _ => .bind fun _ => .throwIf (.bind fun _ => clamped _ _ _)

theorem oneWayAnova (groups : List (List α)) : AnswersInUnit (StudyAnalysis.oneWayAnova groups) :=
  .bind fun _ => .throwIf (clamped _ _ _)

theorem mannWhitneyU (a b : List α) : AnswersInUnit (StudyAnalysis.mannWhitneyU a b) :=
  .bind fun _ => .bind fun _ => .throwIf (clamped _ _ _)

theorem wilcoxonSignedRank (x y : List α) :
    AnswersInUnit (StudyAnalysis.wilcoxonSignedRank x y) :=
  .bind fun _ => .bind fun _ => .throwIf (clamped _ _ _)

theorem kruskalWallis (groups : List (List α)) :
    AnswersInUnit (StudyAnalysis.kruskalWallis groups) :=
  .bind fun _ => .throwIf (clamped _ _ _)

theorem friedman (conditions : List (List α)) : AnswersInUnit (StudyAnalysis.friedman conditions) :=
  .bind fun _ => .bind fun _ => .bind fun _ => .throwIf (clamped _ _ _)

theorem correlationTest (r : α) (n : Nat) : AnswersInUnit (StudyAnalysis.correlationTest r n) := by
  unfold StudyAnalysis.correlationTest
  dsimp only
  split
  · exact clamped _ _ _
  · exact .bind fun _ => clamped _ _ _

theorem pearson (x y : List α) : AnswersInUnit (StudyAnalysis.pearson x y) :=
  .bind fun _ => .bind fun _ => .bind fun r => correlationTest r x.length

theorem spearman (x y : List α) : AnswersInUnit (StudyAnalysis.spearman x y) :=
  .bind fun _ => .bind fun _ => .bind fun r => correlationTest r x.length

theorem kendallTau (x y : List α) : AnswersInUnit (StudyAnalysis.kendallTau x y) :=
  .bind fun _ => .bind fun _ => .throwIf (clamped _ _ _)

theorem chiSquareIndependence (table : List (List α)) :
    AnswersInUnit (StudyAnalysis.chiSquareIndependence table) :=
  .throwIf (.bind fun _ => .throwIf (clamped _ _ _))

end AnswersInUnit

variable [SignFaithful α] [CountDivision α] [Tails α]

/-- **Every test answers a p-value in the unit interval.** -/
theorem runsInUnit_runTest {σ : Type} (source : DrawSource σ) (start : σ) (resamples : Nat)
    (method : TestMethod) (samples : Samples α) :
    RunsInUnit (runTest source start resamples method samples) := by
  unfold runTest
  split
  · exact .bind fun p => (AnswersInUnit.studentsT p.1 p.2).withEffect fun _ => rfl
  · exact .bind fun p => (AnswersInUnit.welchT p.1 p.2).withEffect fun _ => rfl
  · exact .bind fun p => (AnswersInUnit.mannWhitneyU p.1 p.2).withEffect fun _ => rfl
  · exact .bind fun p => (AnswersInUnit.pairedT p.1 p.2).withEffect fun _ => rfl
  · exact .bind fun p => (AnswersInUnit.wilcoxonSignedRank p.1 p.2).withEffect fun _ => rfl
  · exact (AnswersInUnit.oneWayAnova _).withEffect fun _ => rfl
  · exact (AnswersInUnit.kruskalWallis _).withEffect fun _ => rfl
  · exact (AnswersInUnit.friedman _).withEffect fun _ => rfl
  · exact (AnswersInUnit.pearson _ _).withEffect fun _ => rfl
  · exact (AnswersInUnit.spearman _ _).withEffect fun _ => rfl
  · exact (AnswersInUnit.kendallTau _ _).withEffect fun _ => rfl
  · exact (AnswersInUnit.chiSquareIndependence _).withEffect fun _ => rfl
  · exact .bind fun t => (AnswersInUnit.fisherExact t).withEffect fun _ => rfl
  · exact (AnswersInUnit.runBootstrap source start resamples _).withEffect fun _ => rfl
  · exact .error _

theorem inUnit_of_execute {method : TestMethod} {samples : Samples α} {settings : Settings α}
    {run : Execution α} (h : execute method samples settings = .ok run) :
    InUnit run.output.pValue :=
  runsInUnit_runTest _ _ _ method samples run (mapError_eq_ok_iff.1 h)

end StudyAnalysis
