/-
**What a session holds after any number of inquiries.**

Some of the inquiries of a session fail, and others add one result or several.  One inquiry either
leaves the session as it was or appends what its hypothesis evaluates to on its own.  So after any
sequence of inquiries the session holds the results of those that succeeded, in order.  No result is
adjusted by its evaluation, so the correction at the end meets every result for the first time and
cannot fail.

Main definitions:

* `StudyAnalysis.Inquiry` — the arguments of one hypothesis of a session;
* `StudyAnalysis.Inquiry.results` — what an inquiry evaluates to outside of any session;
* `StudyAnalysis.Session.after` — a session after several inquiries;
* `StudyAnalysis.Session.Answers` — what one inquiry is answered, and what it leaves behind.

Main results:

* `StudyAnalysis.unadjusted_of_evaluate` — no evaluation adjusts a result;
* `StudyAnalysis.Session.answers_ask` — one inquiry;
* `StudyAnalysis.Session.results_after` — a whole run;
* `StudyAnalysis.Session.finish_after` — **a session collects the results of its inquiries and
  corrects each of them once**.
-/

import StudyAnalysis.Hypothesis.Session
import StudyAnalysis.Proofs.Hypothesis.Direction

set_option autoImplicit false
set_option relaxedAutoImplicit false

namespace StudyAnalysis

open Fallible

variable {α : Type} [Numeric α]

/-! ### Evaluation does not adjust -/

/-- A result is not adjusted. -/
def TestResult.Unadjusted (r : TestResult α) : Prop :=
  r.adjusted = none

theorem TestResult.unadjusted_makeOneSided {r : TestResult α} (h : r.Unadjusted)
    (confirmed : Bool) : (r.makeOneSided confirmed).Unadjusted := by
  unfold TestResult.makeOneSided
  split <;> exact h

theorem unadjusted_withPredictions {r : TestResult α} (h : r.Unadjusted) (p : PairProperties α)
    (predictions : List Prediction) : (withPredictions p predictions r).Unadjusted := by
  have hrecorded : { r with predictions }.Unadjusted := h
  -- only a single prediction that applies does more than to be recorded
  unfold withPredictions
  dsimp only
  split
  · split
    · exact TestResult.unadjusted_makeOneSided hrecorded _
    · exact hrecorded
  · exact hrecorded

section Evaluation

variable [Tails α] [NumberText α]

omit [NumberText α] in
theorem unadjusted_of_testComparison {settings : Settings α} {declared : Declared}
    {predictions : List Prediction} {p : PairProperties α} {r : TestResult α}
    (h : testComparison settings declared predictions p = .ok r) : r.Unadjusted := by
  obtain ⟨s, x, -, -, rfl⟩ := testComparison_eq_ok_iff.1 h
  exact unadjusted_withPredictions (r := .ofExecution s x p settings) rfl p predictions

/-- Hypotheses are the expressions that evaluate to results. -/
theorem isHypothesis_of_evaluate {d : Dataset α} {ctx : Context α} {e : Expression α}
    {value : Evaluated α} (h : evaluate d ctx e = .ok value) :
    (∃ results, value = .tested results) ↔
      ∃ kind operands predictions, e = .hypothesis kind operands predictions := by
  cases e with
  | column name =>
      rw [evaluate, bind_eq_ok_iff] at h
      obtain ⟨b, -, h⟩ := h
      cases h
      simp
  | literal cell =>
      rw [evaluate] at h
      cases h
      simp
  | filter comparison left right =>
      rw [evaluate] at h
      split at h
      · cases hright : right.literal? with
        | none => simp [hright] at h
        | some comparand =>
            simp only [hright, bind_eq_ok_iff, pure_eq_ok, Except.ok.injEq] at h
            obtain ⟨_, _, _, _, _, _, rfl⟩ := h
            simp
      · simp only [bind_eq_ok_iff, pure_eq_ok, Except.ok.injEq] at h
        obtain ⟨_, _, _, _, _, _, _, _, _, _, rfl⟩ := h
        simp
  | hypothesis kind operands predictions =>
      obtain ⟨_, _, results, _, _, _, _, _, _, rfl⟩ := evaluate_hypothesis_eq_ok_iff.1 h
      exact iff_of_true ⟨results, rfl⟩ ⟨kind, operands, predictions, rfl⟩
  | mean operand =>
      rw [evaluate] at h
      simp only [bind_eq_ok_iff, pure_eq_ok, Except.ok.injEq] at h
      obtain ⟨_, _, _, _, _, _, rfl⟩ := h
      simp
  | median operand =>
      rw [evaluate] at h
      cases h

/-- Every result of an evaluation is that of one comparison. -/
theorem exists_testComparison_of_evaluate {d : Dataset α} {ctx : Context α} {e : Expression α}
    {results : List (TestResult α)} (h : evaluate d ctx e = .ok (.tested results)) :
    ∀ r ∈ results, ∃ settings predictions p,
      testComparison settings ctx.declared predictions p = .ok r := by
  obtain ⟨kind, operands, predictions, rfl⟩ := (isHypothesis_of_evaluate h).1 ⟨results, rfl⟩
  obtain ⟨design, _, _, -, -, -, -, -, hresults, htested⟩ := evaluate_hypothesis_eq_ok_iff.1 h
  obtain rfl := Evaluated.tested.inj htested
  obtain ⟨-, c, -, hresults⟩ := testBindings_eq_ok_iff.1 hresults
  intro r hr
  obtain ⟨p, -, hp⟩ := exists_of_mem_mapM hresults hr
  exact ⟨ctx.settings.forDesign design, predictions, p, hp⟩

/-- **No evaluation adjusts a result.** -/
theorem unadjusted_of_evaluate {d : Dataset α} {ctx : Context α} {e : Expression α}
    {results : List (TestResult α)} (h : evaluate d ctx e = .ok (.tested results)) :
    ∀ r ∈ results, r.Unadjusted := by
  intro r hr
  obtain ⟨settings, predictions, p, hp⟩ := exists_testComparison_of_evaluate h r hr
  exact unadjusted_of_testComparison hp

end Evaluation

/-! ### Inquiries -/

/-- The arguments of one hypothesis of a session. -/
structure Inquiry (α : Type) where
  dataset : Dataset α
  expression : Expression α
  design : Design α
  declared : Declared

namespace Inquiry

variable [Tails α] [NumberText α]

/-- What the expression of an inquiry evaluates to outside of any session. -/
def value (settings : Settings α) (q : Inquiry α) : Except (AnalysisError α) (Evaluated α) :=
  evaluate q.dataset ⟨settings, some q.design, q.declared⟩ q.expression

/-- The results of an inquiry outside of any session; none if it fails or is no hypothesis. -/
def results (settings : Settings α) (q : Inquiry α) : List (TestResult α) :=
  match q.value settings with
  | .ok (.tested results) => results
  | _ => []

theorem results_of_tested {settings : Settings α} {q : Inquiry α} {results : List (TestResult α)}
    (h : q.value settings = .ok (.tested results)) : q.results settings = results := by
  rw [Inquiry.results, h]

/-- Whatever holds of the results that an evaluation has holds of the results of an inquiry. -/
theorem forall_mem_results {settings : Settings α} {q : Inquiry α} {P : TestResult α → Prop}
    (h : ∀ results, q.value settings = .ok (.tested results) → ∀ r ∈ results, P r) :
    ∀ r ∈ q.results settings, P r := by
  unfold results
  split
  · exact h _ ‹_›
  · simp

theorem unadjusted_results {settings : Settings α} {q : Inquiry α} :
    ∀ r ∈ q.results settings, r.Unadjusted :=
  forall_mem_results fun _ h => unadjusted_of_evaluate h

end Inquiry

namespace Session

variable [Tails α] [NumberText α]

/-- The answer of a session to an inquiry, and the session that it leaves behind. -/
def ask (s : Session α) (q : Inquiry α) :
    Except (AnalysisError α) (List (TestResult α)) × Session α :=
  s.hypothesize q.dataset q.expression q.design q.declared

/-- A session after several inquiries. -/
def after (s : Session α) (qs : List (Inquiry α)) : Session α :=
  qs.foldl (fun s q => (s.ask q).2) s

@[simp] theorem after_nil (s : Session α) : s.after [] = s := rfl

@[simp] theorem after_cons (s : Session α) (q : Inquiry α) (qs : List (Inquiry α)) :
    s.after (q :: qs) = (s.ask q).2.after qs := rfl

theorem after_concat (s : Session α) (qs : List (Inquiry α)) (q : Inquiry α) :
    s.after (qs ++ [q]) = ((s.after qs).ask q).2 := by
  simp [after]

/-! ### One inquiry -/

/-- How a session answers an inquiry, and what it holds afterwards.  Its results change only if the
answer is what the hypothesis evaluates to outside of the session, which is then appended. -/
inductive Answers (s : Session α) (q : Inquiry α) :
    Except (AnalysisError α) (List (TestResult α)) → Session α → Prop
  /-- An evaluation that fails is the answer. -/
  | failed {fault : AnalysisError α} (hfault : q.value s.settings = .error fault) :
      Answers s q (.error fault) s
  /-- An expression that states no hypothesis is rejected. -/
  | rejected {value : Evaluated α} (hvalue : q.value s.settings = .ok value)
      (hother : ∀ kind operands predictions,
        q.expression ≠ .hypothesis kind operands predictions) :
      Answers s q (.error (.malformedRelation q.expression.toText .notHypothesis)) s
  /-- The results of a hypothesis are appended. -/
  | tested {results : List (TestResult α)}
      (htested : q.value s.settings = .ok (.tested results)) :
      Answers s q (.ok results) ⟨s.settings, s.results ++ results⟩

theorem outcome_eq (s : Session α) (q : Inquiry α) :
    s.outcome q.dataset q.expression q.design q.declared =
      q.value s.settings >>= fun value =>
        match value.results? with
        | some results => .ok results
        | none => .error (.malformedRelation q.expression.toText .notHypothesis) := rfl

/-- **What one inquiry does to a session.** -/
theorem answers_ask (s : Session α) (q : Inquiry α) :
    s.Answers q (s.ask q).1 (s.ask q).2 := by
  rw [ask, hypothesize, outcome_eq]
  cases hvalue : q.value s.settings with
  | error fault => exact .failed hvalue
  | ok value =>
      cases value with
      | tested results => exact .tested hvalue
      | data _ | summary _ =>
          refine .rejected hvalue fun kind operands predictions he => ?_
          obtain ⟨results, hresults⟩ :=
            (isHypothesis_of_evaluate hvalue).2 ⟨kind, operands, predictions, he⟩
          cases hresults

namespace Answers

variable {s s' : Session α} {q : Inquiry α}
  {answer : Except (AnalysisError α) (List (TestResult α))}

theorem settings_eq (h : s.Answers q answer s') : s'.settings = s.settings := by
  cases h <;> rfl

theorem results_eq (h : s.Answers q answer s') :
    s'.results = s.results ++ q.results s.settings := by
  cases h with
  | failed hfault => simp [Inquiry.results, hfault]
  | rejected hvalue hother =>
      have hnone : ∀ results, q.value s.settings ≠ .ok (.tested results) := by
        intro results htested
        obtain ⟨kind, operands, predictions, he⟩ :=
          (isHypothesis_of_evaluate htested).1 ⟨results, rfl⟩
        exact hother kind operands predictions he
      have hempty : q.results s.settings = [] := by
        unfold Inquiry.results
        split
        · exact absurd ‹_› (hnone _)
        · rfl
      rw [hempty, List.append_nil]
  | tested htested => rw [Inquiry.results_of_tested htested]

end Answers

/-! ### Runs -/

theorem settings_after (s : Session α) (qs : List (Inquiry α)) :
    (s.after qs).settings = s.settings := by
  induction qs generalizing s with
  | nil => rfl
  | cons q qs ih => rw [after_cons, ih, (answers_ask s q).settings_eq]

/-- **A run appends the results of its inquiries, in order.** -/
theorem results_after (s : Session α) (qs : List (Inquiry α)) :
    (s.after qs).results = s.results ++ qs.flatMap (·.results s.settings) := by
  induction qs generalizing s with
  | nil => simp
  | cons q qs ih =>
      rw [after_cons, ih, (answers_ask s q).settings_eq, (answers_ask s q).results_eq,
        List.flatMap_cons, List.append_assoc]

/-! ### The correction -/

omit [Tails α] [NumberText α] in
/-- Results that are not adjusted can be corrected: each p-value is divided by their number if there
are several. -/
theorem exists_finish {s : Session α} (h : ∀ r ∈ s.results, r.Unadjusted) :
    ∃ finished, s.finish = .ok finished ∧
      (1 < s.results.length → finished = s.results.map fun r =>
        { r with adjusted := some (r.pValue / Numeric.ofNat s.results.length) }) ∧
      (s.results.length ≤ 1 → finished = s.results) := by
  by_cases hseveral : 1 < s.results.length
  · have hadjust : ∀ r ∈ s.results, r.adjust (Numeric.count s.results) =
        (.ok (), { r with adjusted := some (r.pValue / Numeric.ofNat s.results.length) }) := by
      intro r hr
      have hnone : r.adjusted = none := h r hr
      rw [TestResult.adjust, TestResult.setAdjusted, hnone, Numeric.count]
    refine ⟨_, ?_, fun _ => rfl, fun hfew => absurd hseveral (Nat.not_lt.2 hfew)⟩
    rw [finish, if_pos hseveral]
    refine mapM_of_eq_ok _ fun r hr => ?_
    rw [hadjust r hr]
    rfl
  · refine ⟨s.results, ?_, fun h => absurd h hseveral, fun _ => rfl⟩
    rw [finish, if_neg hseveral]

/-- **A session collects the results of its inquiries and corrects each of them once.**  Under valid
settings, each inquiry of a run is answered as it is outside of the session: if it succeeds, its
results are appended, and otherwise the session stays as it was.  The results so far are never
adjusted.  To finish always succeeds, with the results in order: if there are several, each p-value
is divided by their number and nothing else is changed, and otherwise nothing is. -/
theorem finish_after {settings : Settings α} (hvalid : settings.validate = .ok ())
    (qs : List (Inquiry α)) :
    ∃ s, start settings = .ok s ∧ s.results = [] ∧
      (∀ before q rest, qs = before ++ q :: rest →
        (s.after before).settings = settings ∧
          (s.after before).Answers q ((s.after before).ask q).1 (s.after (before ++ [q]))) ∧
      (s.after qs).results = qs.flatMap (·.results settings) ∧
      (∀ r ∈ (s.after qs).results, r.Unadjusted) ∧
      ∃ finished, (s.after qs).finish = .ok finished ∧
        (1 < (s.after qs).results.length → finished = (s.after qs).results.map fun r =>
          { r with adjusted := some (r.pValue / Numeric.ofNat (s.after qs).results.length) }) ∧
        ((s.after qs).results.length ≤ 1 → finished = (s.after qs).results) := by
  have hstart : start settings = .ok ⟨settings, []⟩ := by
    rw [start, hvalid]
    rfl
  have hresults : (after ⟨settings, []⟩ qs).results = qs.flatMap (·.results settings) := by
    rw [results_after, List.nil_append]
  have hunadjusted : ∀ r ∈ (after ⟨settings, []⟩ qs).results, r.Unadjusted := by
    intro r hr
    rw [hresults] at hr
    obtain ⟨q, -, hr⟩ := List.mem_flatMap.1 hr
    exact Inquiry.unadjusted_results r hr
  refine ⟨_, hstart, rfl, fun before q rest _ => ⟨settings_after _ before, ?_⟩, hresults,
    hunadjusted, exists_finish hunadjusted⟩
  rw [after_concat]
  exact answers_ask _ q

/-- Inquiries about doses and responses: after a column that does not exist, the hypothesis that they
are related; after a column alone, the hypothesis that their relation is linear and positive. -/
def doseInquiries : List (Inquiry Float) :=
  [⟨doses, .column "weight", .observational ["dose"] ["response"], ⟨∅, ∅⟩⟩,
    ⟨doses, doseHypothesis [], .observational ["dose"] ["response"], ⟨∅, ∅⟩⟩,
    ⟨doses, .column "dose", .observational ["dose"] ["response"], ⟨∅, ∅⟩⟩,
    ⟨doses, doseHypothesis [.positive], .observational ["dose"] ["response"],
      ⟨.ofList [.linearRelationship, .bivariateNormal], ∅⟩⟩]

theorem length_results_doseInquiries :
    doseInquiries.map (fun q => (q.results .standard).length) = [0, 1, 0, 1] := by
  decide +kernel

theorem validate_standard : (Settings.standard : Settings Float).validate = .ok () := by
  have hthreshold : isThreshold (Settings.standard : Settings Float).alpha = true := by
    decide +kernel
  rw [Settings.validate, hthreshold]
  rfl

/-- Two of the inquiries about doses have a result, so each of their p-values is halved. -/
theorem finish_after_doseInquiries :
    (Settings.standard : Settings Float).validate = .ok () ∧
      ∃ s r₁ r₂, start (Settings.standard : Settings Float) = .ok s ∧
        (s.after doseInquiries).results = [r₁, r₂] ∧
        (s.after doseInquiries).finish = .ok
          [{ r₁ with adjusted := some (r₁.pValue / Numeric.ofNat 2) },
            { r₂ with adjusted := some (r₂.pValue / Numeric.ofNat 2) }] := by
  obtain ⟨s, hs, -, -, hresults, -, finished, hfinish, hcorrected, -⟩ :=
    finish_after validate_standard doseInquiries
  have hlength : (s.after doseInquiries).results.length = 2 := by
    rw [hresults, List.length_flatMap, length_results_doseInquiries]
    rfl
  obtain ⟨r₁, r₂, htwo⟩ := List.length_eq_two.1 hlength
  refine ⟨validate_standard, s, r₁, r₂, hs, htwo, ?_⟩
  rw [hfinish, hcorrected (by rw [hlength]; decide), htwo]
  rfl

end Session

end StudyAnalysis
