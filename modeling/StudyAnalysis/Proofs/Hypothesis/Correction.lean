/-
**What the correction of a session does to its results.**

A session that has made several comparisons divides each p-value by their number.  No p-value is below
zero, so the quotient is never above it, and the correction is liberal: a result may become
significant by it and never ceases to be.  The more comparisons a session makes, the less it asks of
each of them.

Main definitions:

* `StudyAnalysis.correctedPValue` — a p-value that is corrected for a number of comparisons;
* `StudyAnalysis.TestResult.Relaxes` — what the correction makes of a result;
* `StudyAnalysis.TestResult.NoLessSignificant` — a result is at least as significant as another one.

Main results:

* `StudyAnalysis.notNegative_of_evaluate` — the p-value of a result is not below zero;
* `StudyAnalysis.Session.finish_relaxes` — **the correction never takes the significance of a result
  away, and further comparisons do not either**;
* `StudyAnalysis.Session.significant_by_repetition` — a comparison that certainly contradicts its
  prediction becomes significant if it is made often enough.
-/

import StudyAnalysis.Proofs.Hypothesis.SessionRuns
import StudyAnalysis.Proofs.Selection.UnitPValues

set_option autoImplicit false
set_option relaxedAutoImplicit false

namespace StudyAnalysis

variable {α : Type} [Numeric α]

/-! ### The p-values of results -/

/-- A result whose p-value is not below zero. -/
def TestResult.NotNegative (r : TestResult α) : Prop :=
  ¬ r.pValue < 0

section PValues

variable [SignFaithful α] [CountDivision α]

/-- What a half of a p-value in the unit interval lacks to one is not below zero, and neither is the
half. -/
theorem TestResult.notNegative_makeOneSided {r : TestResult α} (h : InUnit r.pValue)
    (confirmed : Bool) : (r.makeOneSided confirmed).NotNegative := by
  unfold TestResult.makeOneSided
  split
  · exact h.1
  · cases confirmed with
    | true => exact h.half.1
    | false => exact fun hneg => h.half.2 (SignFaithful.lt_of_sub_neg hneg)

theorem notNegative_withPredictions {r : TestResult α} (h : InUnit r.pValue) (p : PairProperties α)
    (predictions : List Prediction) : (withPredictions p predictions r).NotNegative := by
  have hrecorded : InUnit { r with predictions }.pValue := h
  unfold withPredictions
  dsimp only
  split
  · split
    · exact TestResult.notNegative_makeOneSided hrecorded _
    · exact h.1
  · exact h.1

variable [Tails α]

theorem notNegative_of_testComparison {settings : Settings α} {declared : Declared}
    {predictions : List Prediction} {p : PairProperties α} {r : TestResult α}
    (h : testComparison settings declared predictions p = .ok r) : r.NotNegative := by
  obtain ⟨s, x, -, hx, rfl⟩ := testComparison_eq_ok_iff.1 h
  exact notNegative_withPredictions (r := .ofExecution s x p settings) (inUnit_of_execute hx) p
    predictions

variable [NumberText α]

/-- **No p-value is below zero.** -/
theorem notNegative_of_evaluate {d : Dataset α} {ctx : Context α} {e : Expression α}
    {results : List (TestResult α)} (h : evaluate d ctx e = .ok (.tested results)) :
    ∀ r ∈ results, r.NotNegative := by
  intro r hr
  obtain ⟨settings, predictions, p, hp⟩ := exists_testComparison_of_evaluate h r hr
  exact notNegative_of_testComparison hp

theorem Inquiry.notNegative_results {settings : Settings α} {q : Inquiry α} :
    ∀ r ∈ q.results settings, r.NotNegative :=
  forall_mem_results fun _ h => notNegative_of_evaluate h

end PValues

/-! ### The arithmetic of the correction -/

/-- A p-value that is corrected for a number of comparisons. -/
def correctedPValue (n : Nat) (p : α) : α :=
  if 1 < n then p / Numeric.ofNat n else p

theorem correctedPValue_of_one_lt {n : Nat} (hn : 1 < n) (p : α) :
    correctedPValue n p = p / Numeric.ofNat n :=
  if_pos hn

theorem correctedPValue_of_le_one {n : Nat} (hn : n ≤ 1) (p : α) : correctedPValue n p = p :=
  if_neg (Nat.not_lt.2 hn)

section Arithmetic

variable [CountDivision α] {m n : Nat} {p y : α}

/-- **Whatever is above a p-value that was corrected for some comparisons is above it if it was
corrected for more.** -/
theorem correctedPValue_lt_of_le (hp : ¬ p < 0) (hmn : m ≤ n) (h : correctedPValue m p < y) :
    correctedPValue n p < y := by
  rcases Nat.lt_or_ge 1 n with hn | hn
  · rw [correctedPValue_of_one_lt hn]
    rcases Nat.lt_or_ge 1 m with hm | hm
    · rw [correctedPValue_of_one_lt hm] at h
      exact CountDivision.div_lt_of_le hp (Nat.zero_lt_of_lt hm) hmn h
    · rw [correctedPValue_of_le_one hm] at h
      exact CountDivision.div_lt hp (Nat.zero_lt_of_lt hn) h
  · rw [correctedPValue_of_le_one (hmn.trans hn)] at h
    rwa [correctedPValue_of_le_one hn]

theorem correctedPValue_lt (hp : ¬ p < 0) (n : Nat) (h : p < y) : correctedPValue n p < y :=
  correctedPValue_lt_of_le hp (Nat.zero_le n) h

/-- A p-value that is corrected for more comparisons is no greater. -/
theorem not_correctedPValue_lt [SignFaithful α] (hp : ¬ p < 0) (hmn : m ≤ n) :
    ¬ correctedPValue m p < correctedPValue n p :=
  fun h => SignFaithful.lt_irrefl _ (correctedPValue_lt_of_le hp hmn h)

end Arithmetic

/-! ### Corrected results -/

namespace TestResult

/-- The result with its p-value corrected for a number of comparisons; a single comparison is not
corrected. -/
def corrected (n : Nat) (r : TestResult α) : TestResult α :=
  if 1 < n then { r with adjusted := some (r.pValue / Numeric.ofNat n) } else r

theorem pValue_corrected (n : Nat) (r : TestResult α) : (r.corrected n).pValue = r.pValue := by
  unfold corrected
  split <;> rfl

theorem alpha_corrected (n : Nat) (r : TestResult α) : (r.corrected n).alpha = r.alpha := by
  unfold corrected
  split <;> rfl

theorem effectivePValue_corrected {r : TestResult α} (hr : r.Unadjusted) (n : Nat) :
    (r.corrected n).effectivePValue = correctedPValue n r.pValue := by
  unfold corrected correctedPValue
  split
  · rfl
  · rw [effectivePValue, hr, Option.getD_none]

theorem isSignificant_iff {r : TestResult α} :
    r.isSignificant = true ↔ r.effectivePValue < r.alpha :=
  decide_eq_true_iff

theorem isSignificant_corrected {r : TestResult α} (hr : r.Unadjusted) (n : Nat) :
    (r.corrected n).isSignificant = true ↔ correctedPValue n r.pValue < r.alpha := by
  rw [isSignificant_iff, effectivePValue_corrected hr, alpha_corrected]

theorem isSignificant_unadjusted {r : TestResult α} (hr : r.Unadjusted) :
    r.isSignificant = true ↔ r.pValue < r.alpha := by
  rw [isSignificant_iff, effectivePValue, hr, Option.getD_none]

/-- What the correction for a number of comparisons makes of a result.  Its p-value and its
threshold stay; the p-value that decides is not above the p-value; a significant result stays
significant; and one that is not becomes so exactly if there are several comparisons and the p-value
divided by their number is below the threshold. -/
structure Relaxes (n : Nat) (r c : TestResult α) : Prop where
  pValue_eq : c.pValue = r.pValue
  alpha_eq : c.alpha = r.alpha
  effectivePValue_le : ¬ r.pValue < c.effectivePValue
  keeps : r.isSignificant = true → c.isSignificant = true
  gains : r.isSignificant = false →
    (c.isSignificant = true ↔ 1 < n ∧ r.pValue / Numeric.ofNat n < r.alpha)

/-- A result is at least as significant as another one: the p-value that decides is not above the
one that decides there, and it is significant if the other one is. -/
structure NoLessSignificant (c c' : TestResult α) : Prop where
  effectivePValue_le : ¬ c.effectivePValue < c'.effectivePValue
  keeps : c.isSignificant = true → c'.isSignificant = true

variable [SignFaithful α] [CountDivision α] {r : TestResult α}

theorem relaxes_corrected (hr : r.Unadjusted) (hp : r.NotNegative) (n : Nat) :
    Relaxes n r (r.corrected n) where
  pValue_eq := pValue_corrected n r
  alpha_eq := alpha_corrected n r
  effectivePValue_le := by
    rw [effectivePValue_corrected hr]
    exact not_correctedPValue_lt (m := 0) hp (Nat.zero_le n)
  keeps h := by
    rw [isSignificant_unadjusted hr] at h
    exact (isSignificant_corrected hr n).2 (correctedPValue_lt hp n h)
  gains h := by
    have hnot : ¬ r.pValue < r.alpha := fun hlt =>
      Bool.false_ne_true (h.symm.trans ((isSignificant_unadjusted hr).2 hlt))
    rw [isSignificant_corrected hr]
    rcases Nat.lt_or_ge 1 n with hn | hn
    · rw [correctedPValue_of_one_lt hn, and_iff_right hn]
    · rw [correctedPValue_of_le_one hn]
      exact iff_of_false hnot fun hseveral => Nat.not_lt.2 hn hseveral.1

theorem noLessSignificant_corrected {m n : Nat} (hr : r.Unadjusted) (hp : r.NotNegative)
    (hmn : m ≤ n) : NoLessSignificant (r.corrected m) (r.corrected n) where
  effectivePValue_le := by
    rw [effectivePValue_corrected hr, effectivePValue_corrected hr]
    exact not_correctedPValue_lt hp hmn
  keeps h := by
    rw [isSignificant_corrected hr] at h ⊢
    exact correctedPValue_lt_of_le hp hmn h

end TestResult

/-! ### Sessions -/

namespace Session

/-- Finishing a session corrects its results, unless one of them is adjusted already. -/
theorem finish_eq {s : Session α} (h : ∀ r ∈ s.results, r.Unadjusted) :
    s.finish = .ok (s.results.map (·.corrected s.results.length)) := by
  obtain ⟨finished, hfinish, hseveral, hfew⟩ := exists_finish h
  rw [hfinish]
  congr 1
  unfold TestResult.corrected
  split
  · exact hseveral ‹_›
  · rw [hfew (Nat.not_lt.1 ‹_›), List.map_id']

variable [SignFaithful α] [CountDivision α] [Tails α] [NumberText α]

/-- **The correction never takes the significance of a result away, and further comparisons do not
either.**  Under valid settings a session can always be finished, and each of its results is related
to the finished one by `TestResult.Relaxes`: the p-value that decides is not above the p-value, a
significant result stays significant, and one that is not becomes so exactly if the quotient of its
p-value by the number of comparisons is below its threshold.  If more inquiries had been made, the
finished results so far would be no less significant. -/
theorem finish_relaxes {settings : Settings α} (hvalid : settings.validate = .ok ())
    (qs more : List (Inquiry α)) :
    ∃ s finished later, start settings = .ok s ∧ (s.after qs).finish = .ok finished ∧
      List.Forall₂ (TestResult.Relaxes (s.after qs).results.length) (s.after qs).results finished ∧
      (s.after (qs ++ more)).finish = .ok later ∧
      List.Forall₂ TestResult.NoLessSignificant finished (later.take finished.length) := by
  have hstart : start settings = .ok ⟨settings, []⟩ := by
    rw [start, hvalid]
    rfl
  have hresults (qs : List (Inquiry α)) :
      (after ⟨settings, []⟩ qs).results = qs.flatMap (·.results settings) := by
    rw [results_after, List.nil_append]
  have hunadjusted (qs : List (Inquiry α)) :
      ∀ r ∈ (after ⟨settings, []⟩ qs).results, r.Unadjusted := by
    intro r hr
    rw [hresults] at hr
    obtain ⟨q, -, hr⟩ := List.mem_flatMap.1 hr
    exact Inquiry.unadjusted_results r hr
  have hnotNegative : ∀ r ∈ (after ⟨settings, []⟩ qs).results, r.NotNegative := by
    intro r hr
    rw [hresults] at hr
    obtain ⟨q, -, hr⟩ := List.mem_flatMap.1 hr
    exact Inquiry.notNegative_results r hr
  refine ⟨_, _, _, hstart, finish_eq (hunadjusted qs), ?_, finish_eq (hunadjusted _), ?_⟩
  · rw [List.forall₂_map_right_iff, List.forall₂_same]
    exact fun r hr => TestResult.relaxes_corrected (hunadjusted qs r hr) (hnotNegative r hr) _
  · -- the results of the further inquiries come after those so far
    have hmore : (after ⟨settings, []⟩ (qs ++ more)).results =
        (after ⟨settings, []⟩ qs).results ++ more.flatMap (·.results settings) := by
      rw [hresults, hresults, List.flatMap_append]
    rw [hmore, List.map_append, List.length_map,
      List.take_left' (List.length_map _), List.forall₂_map_left_iff, List.forall₂_map_right_iff,
      List.forall₂_same]
    intro r hr
    refine TestResult.noLessSignificant_corrected (hunadjusted qs r hr) (hnotNegative r hr) ?_
    rw [List.length_append]
    exact Nat.le_add_right _ _

/-! ### A contradicted prediction -/

/-- Doses with responses that fall with them. -/
def fallingDoses : Dataset Float where
  columns := .ofList [
    ("dose", ⟨⟨"dose", .ratio, none⟩, [.int 0, .int 1, .int 2]⟩),
    ("response", ⟨⟨"response", .ratio, none⟩, [.int 2, .int 1, .int 0]⟩)]
  rowCount := 3
  key := none

/-- Whether the responses rise linearly with the doses. -/
def risingInquiry : Inquiry Float :=
  ⟨fallingDoses, doseHypothesis [.positive], .observational ["dose"] ["response"],
    ⟨.ofList [.linearRelationship, .bivariateNormal], ∅⟩⟩

/-- Whether there is a single result, of the p-value one, which is below the threshold only after it
is corrected for 21 comparisons. -/
def isReversed : List (TestResult Float) → Bool
  | [r] =>
    r.pValue == 1 && !decide (r.pValue < r.alpha) && decide (correctedPValue 21 r.pValue < r.alpha)
      && decide (correctedPValue 21 r.pValue < r.pValue)
  | _ => false

theorem exists_of_isReversed {results : List (TestResult Float)} (h : isReversed results = true) :
    ∃ r, results = [r] ∧ (r.pValue == 1) = true ∧ ¬ r.pValue < r.alpha ∧
      correctedPValue 21 r.pValue < r.alpha ∧ correctedPValue 21 r.pValue < r.pValue := by
  unfold isReversed at h
  split at h
  · simp only [Bool.and_eq_true, Bool.not_eq_true', decide_eq_true_iff, decide_eq_false_iff_not,
      and_assoc] at h
    exact ⟨_, rfl, h⟩
  · cases h

theorem exists_results_risingInquiry :
    ∃ r, risingInquiry.results .standard = [r] ∧ (r.pValue == 1) = true ∧ ¬ r.pValue < r.alpha ∧
      correctedPValue 21 r.pValue < r.alpha ∧ correctedPValue 21 r.pValue < r.pValue :=
  exists_of_isReversed (by decide +kernel)

/-- **A comparison that certainly contradicts its prediction becomes significant if it is made often
enough.**  Made once, it has the p-value one and is not significant.  Made 21 times, it is significant
each time, at the same threshold. -/
theorem significant_by_repetition :
    ∃ s r c, start (Settings.standard : Settings Float) = .ok s ∧
      (s.after [risingInquiry]).finish = .ok [r] ∧
      (r.pValue == 1) = true ∧ r.isSignificant = false ∧
      (s.after (List.replicate 21 risingInquiry)).results = List.replicate 21 r ∧
      (s.after (List.replicate 21 risingInquiry)).finish = .ok (List.replicate 21 c) ∧
      c.effectivePValue < r.effectivePValue ∧ c.isSignificant = true := by
  obtain ⟨r, hr, hone, hinsignificant, hsignificant, hless⟩ := exists_results_risingInquiry
  have hmem : r ∈ risingInquiry.results .standard := by
    rw [hr]
    exact List.mem_singleton_self r
  have hunadjusted : r.Unadjusted := Inquiry.unadjusted_results r hmem
  have hresults (n : Nat) :
      (after ⟨.standard, []⟩ (List.replicate n risingInquiry)).results = List.replicate n r := by
    rw [results_after, List.nil_append, List.flatMap_replicate, hr]
    simp
  have hfinish (n : Nat) : (after ⟨.standard, []⟩ (List.replicate n risingInquiry)).finish =
      .ok (List.replicate n (r.corrected n)) := by
    have hall : ∀ r' ∈ List.replicate n r, r'.Unadjusted := by
      intro r' hr'
      rwa [List.eq_of_mem_replicate hr']
    rw [finish_eq (hresults n ▸ hall), hresults, List.map_replicate, List.length_replicate]
  refine ⟨⟨.standard, []⟩, r, r.corrected 21, ?_, hfinish 1, hone, ?_, hresults 21, hfinish 21,
    ?_, ?_⟩
  · rw [start, validate_standard]
    rfl
  · rwa [← Bool.not_eq_true, TestResult.isSignificant_unadjusted hunadjusted]
  · rwa [TestResult.effectivePValue_corrected hunadjusted, TestResult.effectivePValue, hunadjusted]
  · exact (TestResult.isSignificant_corrected hunadjusted 21).2 hsignificant

/-- One comparison of the doses and twenty further ones. -/
theorem finish_relaxes_risingInquiry :
    (Settings.standard : Settings Float).validate = .ok () ∧
      ∃ s finished later, start (Settings.standard : Settings Float) = .ok s ∧
        (s.after [risingInquiry]).finish = .ok finished ∧
        List.Forall₂ (TestResult.Relaxes (s.after [risingInquiry]).results.length)
          (s.after [risingInquiry]).results finished ∧
        (s.after ([risingInquiry] ++ List.replicate 20 risingInquiry)).finish = .ok later ∧
        List.Forall₂ TestResult.NoLessSignificant finished (later.take finished.length) :=
  ⟨validate_standard, finish_relaxes validate_standard _ _⟩

end Session

end StudyAnalysis
