/-
**A prediction and its opposite.**

Every prediction has an opposite: the two groups change places, or a positive relation becomes a
negative one.  Both are judged by the same two numbers, of which one prediction says that the first
is below the second and the other one the converse.  So they apply to the same comparisons and are
never both confirmed, and where the two numbers are equal neither of them is.

For two groups the numbers are the means of their samples.  For a correlation they are zero and the
sign of the coefficient, and the sign of a double is never zero: that of a coefficient of zero is
one with the sign bit of the zero.  So one of the two predictions is confirmed even without any
correlation.

Main definitions:

* `StudyAnalysis.Prediction.opposite` — the prediction of the opposite direction;
* `StudyAnalysis.PairProperties.Weighs` — the two numbers by which a prediction is judged;
* `StudyAnalysis.JudgedApart` — what a prediction and its opposite make of a two-sided result.

Main results:

* `StudyAnalysis.confirmed?_eq_some_iff` — **a prediction is confirmed if the first of its numbers
  is below the second**;
* `StudyAnalysis.confirmed?_opposite_of_confirmed` — never both of two opposite predictions are;
* `StudyAnalysis.evaluate_opposed_predictions` — **the two evaluations under a prediction and under
  its opposite**;
* `StudyAnalysis.evaluate_equal_means` — equal means confirm neither prediction;
* `StudyAnalysis.evaluate_balanced_doses` — doses without correlation confirm a positive one.
-/

import StudyAnalysis.Proofs.Hypothesis.Direction
import StudyAnalysis.Proofs.Hypothesis.Relabelling
import StudyAnalysis.Proofs.Number.Order

set_option autoImplicit false
set_option relaxedAutoImplicit false

namespace StudyAnalysis

open Fallible

/-! ### Opposite predictions -/

namespace Prediction

/-- The prediction of the opposite direction. -/
def opposite : Prediction → Prediction
  | groupOrder greater lesser => groupOrder lesser greater
  | positive => negative
  | negative => positive

@[simp] theorem opposite_opposite (prediction : Prediction) :
    prediction.opposite.opposite = prediction := by
  cases prediction <;> rfl

end Prediction

/-- Labels that exist are accepted in either order. -/
theorem checkPredictions_opposite {α : Type} [Numeric α] {bindings : List (Binding α)}
    {predictions : List Prediction} (h : checkPredictions bindings predictions = .ok ()) :
    checkPredictions bindings (predictions.map Prediction.opposite) = .ok () := by
  rw [checkPredictions_eq_ok_iff] at h ⊢
  intro greater lesser hmem
  obtain ⟨prediction, hprediction, hopposite⟩ := List.mem_map.1 hmem
  obtain rfl : prediction = .groupOrder lesser greater := by
    rw [← prediction.opposite_opposite, hopposite]
    rfl
  obtain ⟨v, hv, hlesser, hgreater⟩ := h _ _ hprediction
  exact ⟨v, hv, hgreater, hlesser⟩

/-! ### Judgements -/

section Judgements

variable {α : Type} [Numeric α] {p : PairProperties α} {prediction : Prediction} {low high : α}

namespace PairProperties

/-- The two numbers by which a prediction is judged; it says that the first is below the second. -/
inductive Weighs (p : PairProperties α) : Prediction → α → α → Prop
  | groupOrder {greater lesser : String} {paired : Bool} {a b : List α}
      (hshape : p.shape = .groupComparison 2 paired)
      (hgreater : p.samples.sampleOf? greater = some a)
      (hlesser : p.samples.sampleOf? lesser = some b) :
      Weighs p (.groupOrder greater lesser) (mean b) (mean a)
  | positive {x y : List α} {c : α} (hshape : p.shape = .correlation)
      (hsamples : p.samples = .bivariate x y) (hc : correlation x y = .ok c) :
      Weighs p .positive 0 (Numeric.signum c)
  | negative {x y : List α} {c : α} (hshape : p.shape = .correlation)
      (hsamples : p.samples = .bivariate x y) (hc : correlation x y = .ok c) :
      Weighs p .negative (Numeric.signum c) 0

/-- **The opposite prediction is judged by the same numbers**, the other way around. -/
theorem Weighs.opposite (h : p.Weighs prediction low high) :
    p.Weighs prediction.opposite high low := by
  cases h with
  | groupOrder hshape hgreater hlesser => exact .groupOrder hshape hlesser hgreater
  | positive hshape hsamples hc => exact .negative hshape hsamples hc
  | negative hshape hsamples hc => exact .positive hshape hsamples hc

theorem Weighs.confirmed?_eq (h : p.Weighs prediction low high) :
    confirmed? p prediction = some (decide (low < high)) := by
  cases h with
  | groupOrder hshape hgreater hlesser =>
      simp only [confirmed?, hshape]
      exact observedOrder_eq_some_iff.2 ⟨_, _, hgreater, hlesser, rfl⟩
  | positive hshape hsamples hc | negative hshape hsamples hc =>
      simp [confirmed?, hshape, observedSign, hsamples, hc, Except.toOption]

/-- The means of the two groups of a predicted order are equal. -/
def EqualMeans (p : PairProperties α) (prediction : Prediction) : Prop :=
  ∃ greater lesser a b, prediction = .groupOrder greater lesser ∧
    p.samples.sampleOf? greater = some a ∧ p.samples.sampleOf? lesser = some b ∧
    (mean b == mean a) = true

end PairProperties

/-- **A prediction is confirmed if the first of its numbers is below the second.** -/
theorem confirmed?_eq_some_iff {confirmed : Bool} : confirmed? p prediction = some confirmed ↔
    ∃ low high, p.Weighs prediction low high ∧ decide (low < high) = confirmed := by
  constructor
  · intro h
    obtain ⟨_, _, _, _, _, rfl, hshape, ha, hb, hconfirmed⟩ |
      ⟨_, _, _, hshape, hsamples, hc, ⟨rfl, hconfirmed⟩ | ⟨rfl, hconfirmed⟩⟩ :=
      exists_of_confirmed? h
    · exact ⟨_, _, .groupOrder hshape ha hb, hconfirmed⟩
    · exact ⟨_, _, .positive hshape hsamples hc, hconfirmed⟩
    · exact ⟨_, _, .negative hshape hsamples hc, hconfirmed⟩
  · rintro ⟨low, high, hweighs, rfl⟩
    exact hweighs.confirmed?_eq

theorem isSome_confirmed?_opposite_of (h : (confirmed? p prediction).isSome = true) :
    (confirmed? p prediction.opposite).isSome = true := by
  obtain ⟨confirmed, hconfirmed⟩ := Option.isSome_iff_exists.1 h
  obtain ⟨low, high, hweighs, -⟩ := confirmed?_eq_some_iff.1 hconfirmed
  rw [hweighs.opposite.confirmed?_eq]
  rfl

/-- **Opposite predictions apply to the same comparisons.** -/
theorem isSome_confirmed?_opposite :
    (confirmed? p prediction.opposite).isSome = (confirmed? p prediction).isSome := by
  rw [Bool.eq_iff_iff]
  refine ⟨fun h => ?_, isSome_confirmed?_opposite_of⟩
  rw [← prediction.opposite_opposite]
  exact isSome_confirmed?_opposite_of h

/-- **A prediction and its opposite are never both confirmed.** -/
theorem confirmed?_opposite_of_confirmed [SignFaithful α]
    (h : confirmed? p prediction = some true) : confirmed? p prediction.opposite = some false := by
  obtain ⟨low, high, hweighs, hlt⟩ := confirmed?_eq_some_iff.1 h
  have hconverse : ¬ high < low := SignFaithful.lt_asymm (of_decide_eq_true hlt)
  rw [hweighs.opposite.confirmed?_eq, decide_eq_false hconverse]

end Judgements

/-! ### Doubles -/

section Doubles

variable {p : PairProperties Float} {prediction : Prediction}

/-- **Equal means confirm neither of two opposite predictions.** -/
theorem eq_false_of_equalMeans (h : p.EqualMeans prediction) :
    ∀ side ∈ [prediction, prediction.opposite], ∀ confirmed,
      confirmed? p side = some confirmed → confirmed = false := by
  obtain ⟨greater, lesser, a, b, rfl, hgreater, hlesser, hequal⟩ := h
  obtain ⟨hlow, hhigh⟩ := Double.not_lt_of_beq hequal
  refine List.forall_mem_cons.2 ⟨fun confirmed hconfirmed => ?_,
    List.forall_mem_singleton.2 fun confirmed hconfirmed => ?_⟩
  · obtain ⟨_, _, ⟨-, ha, hb⟩, rfl⟩ := confirmed?_eq_some_iff.1 hconfirmed
    obtain rfl := Option.some.inj (hgreater.symm.trans ha)
    obtain rfl := Option.some.inj (hlesser.symm.trans hb)
    exact decide_eq_false hlow
  · obtain ⟨_, _, ⟨-, hb, ha⟩, rfl⟩ := confirmed?_eq_some_iff.1 hconfirmed
    obtain rfl := Option.some.inj (hgreater.symm.trans ha)
    obtain rfl := Option.some.inj (hlesser.symm.trans hb)
    exact decide_eq_false hhigh

/-- **One of two opposite predictions about a correlation is confirmed**, according to the sign bit
of the coefficient, which zero has too. -/
theorem confirmed?_of_correlation {x y : List Float} {c : Float} (hshape : p.shape = .correlation)
    (hsamples : p.samples = .bivariate x y) (hc : correlation x y = .ok c)
    (hnan : c.isNaN = false) :
    confirmed? p .positive = some (decide (c.toBits < 0x8000000000000000)) ∧
      confirmed? p .negative = some (!decide (c.toBits < 0x8000000000000000)) := by
  have hpositive := Double.zero_lt_signum_iff hnan
  have hnegative := Double.signum_lt_zero_iff hnan
  rw [(PairProperties.Weighs.positive hshape hsamples hc).confirmed?_eq,
    (PairProperties.Weighs.negative hshape hsamples hc).confirmed?_eq, ← decide_not]
  exact ⟨congrArg some (decide_eq_decide.2 hpositive), congrArg some (decide_eq_decide.2 hnegative)⟩

end Doubles

/-! ### Two evaluations -/

/-- What a prediction and its opposite make of the two-sided result of a comparison. -/
structure JudgedApart (prediction : Prediction) (p : PairProperties Float)
    (twoSided : TestResult Float) : Prop where
  applyAlike : (confirmed? p prediction.opposite).isSome = (confirmed? p prediction).isSome
  notBoth : ¬ (confirmed? p prediction = some true ∧ confirmed? p prediction.opposite = some true)
  /-- Only what is confirmed has its p-value halved. -/
  taken : ∀ side ∈ [prediction, prediction.opposite], ∀ confirmed,
    confirmed? p side = some confirmed →
      TakenTowards twoSided (withPredictions p [side] twoSided) (confirmed = true)
  /-- What is confirmed is strictly so, unless there is no correlation. -/
  strict : ¬ p.Uncorrelated → ∀ side ∈ [prediction, prediction.opposite],
    confirmed? p side = some true → p.PointsTowards side
  ofEqualMeans : p.EqualMeans prediction → ∀ side ∈ [prediction, prediction.opposite],
    ∀ confirmed, confirmed? p side = some confirmed → confirmed = false
  /-- Exactly one prediction about a correlation is confirmed, that about zero included. -/
  ofCorrelation : ∀ x y c, p.shape = .correlation → p.samples = .bivariate x y →
    correlation x y = .ok c → c.isNaN = false →
      confirmed? p .positive = some (decide (c.toBits < 0x8000000000000000)) ∧
      confirmed? p .negative = some (!decide (c.toBits < 0x8000000000000000))

section Evaluations

variable {prediction : Prediction}

theorem judgedApart_of_testComparison {settings : Settings Float} {declared : Declared}
    {p : PairProperties Float} {r : TestResult Float}
    (h : testComparison settings declared [] p = .ok r) : JudgedApart prediction p r := by
  obtain ⟨s, x, -, -, rfl⟩ := testComparison_eq_ok_iff.1 h
  refine ⟨isSome_confirmed?_opposite, ?_, ?_, ?_, eq_false_of_equalMeans, ?_⟩
  · rintro ⟨hconfirmed, hopposite⟩
    cases hopposite.symm.trans (confirmed?_opposite_of_confirmed hconfirmed)
  · intro side _ confirmed hconfirmed
    exact takenTowards_of_confirmed? rfl hconfirmed
  · intro hcorrelated side _ hconfirmed
    exact (pointsTowards_iff_of_confirmed? hcorrelated hconfirmed).2 rfl
  · intro x y c hshape hsamples hc hnan
    exact confirmed?_of_correlation hshape hsamples hc hnan

variable {d : Dataset Float} {ctx : Context Float} {operands : List (Expression Float)}
  {kind : HypothesisKind} {x : Evaluated Float}

/-- **The two evaluations under a prediction and under its opposite.**  If a hypothesis can be
tested under a prediction, it can be tested under the opposite one and without any, in the same
comparisons.  In every comparison the two predictions apply alike and are not both confirmed; only
the confirmed one has its p-value halved.  Equal means of two groups confirm neither prediction.  Of
two predictions about a correlation exactly one is confirmed, that of a coefficient of zero by its
sign bit. -/
theorem evaluate_opposed_predictions
    (h : evaluate d ctx (.hypothesis kind operands [prediction]) = .ok x) :
    ∃ tested : List (PairProperties Float × TestResult Float),
      Compares d ctx operands (tested.map (·.1)) ∧
      evaluate d ctx (.hypothesis kind operands []) = .ok (.tested (tested.map (·.2))) ∧
      x = .tested (tested.map fun q => withPredictions q.1 [prediction] q.2) ∧
      evaluate d ctx (.hypothesis kind operands [prediction.opposite]) =
        .ok (.tested (tested.map fun q => withPredictions q.1 [prediction.opposite] q.2)) ∧
      ∀ q ∈ tested, JudgedApart prediction q.1 q.2 := by
  obtain ⟨tested, hcompares, htwoSided, rfl, hall, hothers⟩ := exists_tested_of_evaluate h
  refine ⟨tested, hcompares, htwoSided, rfl, ?_, fun q hq => ?_⟩
  · exact hothers [prediction.opposite] fun _ hchecked => checkPredictions_opposite hchecked
  · obtain ⟨-, settings, hresult⟩ := hall q hq
    exact judgedApart_of_testComparison hresult

end Evaluations

/-! ### Numbers that are equal -/

/-- Two groups whose ratings have equal means. -/
def levelGroups : Dataset Float where
  columns := .ofList [
    ("cond", ⟨⟨"cond", .nominal, some ["a", "b"]⟩, [.text "a", .text "a", .text "b", .text "b"]⟩),
    ("rating", ⟨⟨"rating", .ordinal, some ["low", "middle", "high"]⟩,
      [.text "low", .text "high", .text "middle", .text "middle"]⟩)]
  rowCount := 4
  key := none

/-- The experiment whose ratings are compared; they are declared to be normal with equal
variances. -/
def levelStudy : Context Float :=
  ⟨.standard, some (.experiment ["cond"] ["rating"]),
    ⟨.ofList [.normalDistribution, .equalVariances], ∅⟩⟩

/-- Equal means halve the p-value neither for the first group nor for the second one. -/
theorem evaluate_equal_means :
    let hypothesis predictions := evaluate levelGroups levelStudy
      (.hypothesis .compare [.column "cond", .column "rating"] predictions)
    ∃ p u r r', Compares levelGroups levelStudy [.column "cond", .column "rating"] [p] ∧
      hypothesis [] = .ok (.tested [u]) ∧
      hypothesis [.groupOrder "a" "b"] = .ok (.tested [r]) ∧
      confirmed? p (.groupOrder "a" "b") = some false ∧ r.pValue = 1 - u.pValue / 2 ∧
      hypothesis [.groupOrder "b" "a"] = .ok (.tested [r']) ∧
      confirmed? p (.groupOrder "b" "a") = some false ∧ r'.pValue = 1 - u.pValue / 2 := by
  intro hypothesis
  obtain ⟨p, hcompares, hshape, hsamples⟩ : ∃ p,
      Compares levelGroups levelStudy [.column "cond", .column "rating"] [p] ∧
        p.shape = .groupComparison 2 false ∧
        p.samples = .groups ["a", "b"] [[1, 3], [2, 2]] :=
    ⟨_, ⟨_, _, _, rfl, rfl, rfl, rfl⟩, rfl, rfl⟩
  have hfirst : p.samples.sampleOf? "a" = some [1, 3] := by
    rw [hsamples]
    rfl
  have hsecond : p.samples.sampleOf? "b" = some [2, 2] := by
    rw [hsamples]
    rfl
  have hequal : p.EqualMeans (.groupOrder "a" "b") :=
    ⟨_, _, _, _, rfl, hfirst, hsecond, by decide +kernel⟩
  have hweighs : p.Weighs (.groupOrder "a" "b") _ _ := .groupOrder hshape hfirst hsecond
  have hevaluated : hasOneSided .studentsT "cohens_d" (fun _ => true)
      (hypothesis [.groupOrder "a" "b"]) = true := by
    decide +kernel
  obtain ⟨r, -, hr, -⟩ := exists_of_hasOneSided hevaluated
  obtain ⟨tested, htested, htwoSided, hresult, hopposite, hjudged⟩ :=
    evaluate_opposed_predictions hr
  obtain ⟨⟨p', u⟩, rfl, rfl⟩ := List.map_eq_singleton_iff.1 (htested.unique hcompares)
  obtain rfl := List.singleton_inj.1 (Evaluated.tested.inj hresult)
  have h := hjudged _ (List.mem_singleton_self _)
  have hneither : ∀ side ∈ [Prediction.groupOrder "a" "b", .groupOrder "b" "a"], ∀ confirmed,
      confirmed? p' side = some confirmed → confirmed? p' side = some false ∧
        (withPredictions p' [side] u).pValue = 1 - u.pValue / 2 := by
    intro side hside confirmed hconfirmed
    obtain rfl := h.ofEqualMeans hequal side hside confirmed hconfirmed
    exact ⟨hconfirmed, (h.taken side hside false hconfirmed).complemented Bool.false_ne_true⟩
  obtain ⟨hfalse, hp⟩ := hneither (.groupOrder "a" "b") (by simp) _ hweighs.confirmed?_eq
  obtain ⟨hfalse', hp'⟩ :=
    hneither (.groupOrder "b" "a") (by simp) _ hweighs.opposite.confirmed?_eq
  exact ⟨p', u, _, _, hcompares, htwoSided, hr, hfalse, hp, hopposite, hfalse', hp'⟩

/-- Doses and responses without correlation. -/
def balancedDoses : Dataset Float where
  columns := .ofList [
    ("dose", ⟨⟨"dose", .ratio, none⟩, [.real 0, .real 4, .real 5]⟩),
    ("response", ⟨⟨"response", .ratio, none⟩, [.real 6, .real 0, .real 9]⟩)]
  rowCount := 3
  key := none

/-- Doses without correlation confirm a positive relation, towards which the p-value is halved. -/
theorem evaluate_balanced_doses :
    let hypothesis predictions := evaluate balancedDoses (doseStudy ∅) (doseHypothesis predictions)
    ∃ p u r r', Compares balancedDoses (doseStudy ∅) [.column "dose", .column "response"] [p] ∧
      p.Uncorrelated ∧ ¬ p.PointsTowards .positive ∧
      hypothesis [] = .ok (.tested [u]) ∧ hypothesis [.positive] = .ok (.tested [r]) ∧
      confirmed? p .positive = some true ∧ r.pValue = u.pValue / 2 ∧
      hypothesis [.negative] = .ok (.tested [r']) ∧
      confirmed? p .negative = some false ∧ r'.pValue = 1 - u.pValue / 2 := by
  intro hypothesis
  obtain ⟨p, hcompares, hshape, hsamples⟩ : ∃ p,
      Compares balancedDoses (doseStudy ∅) [.column "dose", .column "response"] [p] ∧
        p.shape = .correlation ∧ p.samples = .bivariate [0, 4, 5] [6, 0, 9] :=
    ⟨_, ⟨_, _, _, rfl, rfl, rfl, rfl⟩, rfl, rfl⟩
  have hzero : (correlation [(0 : Float), 4, 5] [6, 0, 9]).toOption.any (fun c => (c == 0) &&
      !decide (0 < c) && !c.isNaN && decide (c.toBits < 0x8000000000000000)) = true := by
    decide +kernel
  obtain ⟨c, hc, hzero⟩ := (Option.any_eq_true _ _).1 hzero
  simp only [Bool.and_eq_true, Bool.not_eq_true', decide_eq_true_iff, decide_eq_false_iff_not]
    at hzero
  obtain ⟨⟨⟨hzero, hpos⟩, hnan⟩, hbit⟩ := hzero
  rw [toOption_eq_some_iff] at hc
  obtain ⟨hpositive, hnegative⟩ := confirmed?_of_correlation hshape hsamples hc hnan
  rw [decide_eq_true hbit] at hpositive hnegative
  have hevaluated : hasOneSided .kendallTau "tau" (fun _ => true)
      (hypothesis [.positive]) = true := by
    decide +kernel
  obtain ⟨r, -, hr, -⟩ := exists_of_hasOneSided hevaluated
  obtain ⟨tested, htested, htwoSided, hresult, hall, hothers⟩ := exists_tested_of_evaluate hr
  obtain ⟨⟨p', u⟩, rfl, rfl⟩ := List.map_eq_singleton_iff.1 (htested.unique hcompares)
  obtain rfl := List.singleton_inj.1 (Evaluated.tested.inj hresult)
  obtain ⟨-, settings, htest⟩ := hall _ (List.mem_singleton_self _)
  have hopposite := hothers [.negative] fun _ _ => rfl
  have h : JudgedApart .positive p' u := judgedApart_of_testComparison htest
  exact ⟨p', u, _, _, hcompares, ⟨_, _, c, hsamples, hc, hzero⟩,
    (pointsTowards_positive_iff hsamples hc).not.2 hpos, htwoSided, hr, hpositive,
    (h.taken _ (by simp) _ hpositive).halved rfl, hopposite, hnegative,
    (h.taken _ (by simp [Prediction.opposite]) _ hnegative).complemented Bool.false_ne_true⟩

end StudyAnalysis
