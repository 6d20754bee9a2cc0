/-
**The direction of a one-sided p-value.**

A single prediction takes the p-value of a comparison towards the direction in which its samples
differ: that of the group means, or that of the product-moment correlation, whichever test was
chosen.  The effect size of a test on ranks may point the other way, and so may that of the paired
t-test, which averages differences that are rounded.  Where the effect size is computed from the
means themselves, or is the coefficient itself, the two directions are one.

Main definitions:

* `StudyAnalysis.TakenTowards` — a p-value is halved, or what the other half lacks to one;
* `StudyAnalysis.PairProperties.PointsTowards` — **the samples differ in the predicted direction**;
* `StudyAnalysis.PairProperties.EffectTowards` — an effect size points in the predicted direction;
* `StudyAnalysis.FollowsDirection` — what a single prediction makes of a two-sided result.

Main results:

* `StudyAnalysis.pointsTowards_iff_of_confirmed?` — a prediction is confirmed exactly by samples
  that differ in its direction;
* `StudyAnalysis.effectTowards_iff_pointsTowards` — for tests of means and of the product-moment
  correlation the effect size has the direction of the samples;
* `StudyAnalysis.exists_tested_of_evaluate` — predictions only change the two-sided results;
* `StudyAnalysis.evaluate_follows_direction` — **every one-sided result follows the direction of its
  samples**.
-/

import StudyAnalysis.Proofs.Hypothesis.PreparedSamples
import StudyAnalysis.Proofs.Hypothesis.RowRestriction
import StudyAnalysis.Proofs.Number.Signs

set_option autoImplicit false
set_option relaxedAutoImplicit false

namespace StudyAnalysis

open Fallible

variable {α : Type} [Numeric α]

/-! ### Directions -/

/-- The p-value of a result is that of a two-sided one, taken towards a direction: half of it, or
what that half lacks to one. -/
structure TakenTowards (twoSided r : TestResult α) (towards : Prop) : Prop where
  halved : towards → r.pValue = twoSided.pValue / 2
  complemented : ¬ towards → r.pValue = 1 - twoSided.pValue / 2

namespace PairProperties

/-- The samples of a comparison differ strictly in the predicted direction. -/
inductive PointsTowards (p : PairProperties α) : Prediction → Prop
  | groupOrder {greater lesser : String} {a b : List α}
      (hgreater : p.samples.sampleOf? greater = some a)
      (hlesser : p.samples.sampleOf? lesser = some b) (h : mean b < mean a) :
      PointsTowards p (.groupOrder greater lesser)
  | positive {x y : List α} {c : α} (hsamples : p.samples = .bivariate x y)
      (hc : correlation x y = .ok c) (h : 0 < c) : PointsTowards p .positive
  | negative {x y : List α} {c : α} (hsamples : p.samples = .bivariate x y)
      (hc : correlation x y = .ok c) (h : c < 0) : PointsTowards p .negative

/-- The product-moment correlation of the samples is zero, so that it has no direction. -/
def Uncorrelated (p : PairProperties α) : Prop :=
  ∃ x y c, p.samples = .bivariate x y ∧ correlation x y = .ok c ∧ (c == 0) = true

/-- An effect size points strictly in the predicted direction: a positive one says that the first of
two groups is the greater, or that two variables grow together. -/
inductive EffectTowards (p : PairProperties α) (effect : α) : Prediction → Prop
  | first {first second : String} {samples : List (List α)}
      (hlabels : p.samples.groups? = some ([first, second], samples)) (hne : first ≠ second)
      (h : 0 < effect) : EffectTowards p effect (.groupOrder first second)
  | second {first second : String} {samples : List (List α)}
      (hlabels : p.samples.groups? = some ([first, second], samples)) (hne : first ≠ second)
      (h : effect < 0) : EffectTowards p effect (.groupOrder second first)
  | positive (h : 0 < effect) : EffectTowards p effect .positive
  | negative (h : effect < 0) : EffectTowards p effect .negative

end PairProperties

/-! ### Predictions that came true -/

section Confirmed

variable {p : PairProperties α}

theorem observedOrder_eq_some_iff {greater lesser : String} {confirmed : Bool} :
    p.observedOrder greater lesser = some confirmed ↔
      ∃ a b, p.samples.sampleOf? greater = some a ∧ p.samples.sampleOf? lesser = some b ∧
        decide (mean b < mean a) = confirmed := by
  simp [PairProperties.observedOrder, Option.bind_eq_some_iff]

theorem exists_of_observedSign {sign : α} (h : p.observedSign = some sign) :
    ∃ x y c, p.samples = .bivariate x y ∧ correlation x y = .ok c ∧ Numeric.signum c = sign := by
  rw [PairProperties.observedSign] at h
  split at h
  · rename_i x y hsamples
    obtain ⟨c, hc, rfl⟩ := Option.map_eq_some_iff.1 h
    exact ⟨x, y, c, hsamples, toOption_eq_some_iff.1 hc, rfl⟩
  · cases h

variable {prediction : Prediction} {confirmed : Bool}

/-- A prediction applies to two groups that both have observations, by the order of their means, and
to a correlation, by the sign of the product-moment coefficient. -/
theorem exists_of_confirmed? (h : confirmed? p prediction = some confirmed) :
    (∃ greater lesser a b paired, prediction = .groupOrder greater lesser ∧
      p.shape = .groupComparison 2 paired ∧ p.samples.sampleOf? greater = some a ∧
      p.samples.sampleOf? lesser = some b ∧ decide (mean b < mean a) = confirmed) ∨
    (∃ x y c, p.shape = .correlation ∧ p.samples = .bivariate x y ∧ correlation x y = .ok c ∧
      (prediction = .positive ∧ decide (0 < Numeric.signum c) = confirmed ∨
        prediction = .negative ∧ decide (Numeric.signum c < 0) = confirmed)) := by
  unfold confirmed? at h
  split at h
  · rename_i greater lesser paired hshape
    obtain ⟨a, b, ha, hb, hconfirmed⟩ := observedOrder_eq_some_iff.1 h
    exact .inl ⟨greater, lesser, a, b, paired, rfl, hshape, ha, hb, hconfirmed⟩
  · rename_i hshape
    obtain ⟨sign, hsign, hconfirmed⟩ := Option.map_eq_some_iff.1 h
    obtain ⟨x, y, c, hsamples, hc, rfl⟩ := exists_of_observedSign hsign
    exact .inr ⟨x, y, c, hshape, hsamples, hc, .inl ⟨rfl, hconfirmed⟩⟩
  · rename_i hshape
    obtain ⟨sign, hsign, hconfirmed⟩ := Option.map_eq_some_iff.1 h
    obtain ⟨x, y, c, hsamples, hc, rfl⟩ := exists_of_observedSign hsign
    exact .inr ⟨x, y, c, hshape, hsamples, hc, .inr ⟨rfl, hconfirmed⟩⟩
  · cases h

theorem pointsTowards_groupOrder_iff {greater lesser : String} {a b : List α}
    (ha : p.samples.sampleOf? greater = some a) (hb : p.samples.sampleOf? lesser = some b) :
    p.PointsTowards (.groupOrder greater lesser) ↔ mean b < mean a := by
  constructor
  · rintro (⟨ha', hb', hlt⟩ | _ | _)
    rwa [Option.some.inj (ha.symm.trans ha'), Option.some.inj (hb.symm.trans hb')]
  · exact .groupOrder ha hb

theorem pointsTowards_positive_iff {x y : List α} {c : α} (hsamples : p.samples = .bivariate x y)
    (hc : correlation x y = .ok c) : p.PointsTowards .positive ↔ 0 < c := by
  constructor
  · rintro (_ | ⟨hsamples', hc', hpos⟩ | _)
    cases hsamples.symm.trans hsamples'
    rwa [Except.ok.inj (hc.symm.trans hc')]
  · exact .positive hsamples hc

theorem pointsTowards_negative_iff {x y : List α} {c : α} (hsamples : p.samples = .bivariate x y)
    (hc : correlation x y = .ok c) : p.PointsTowards .negative ↔ c < 0 := by
  constructor
  · rintro (_ | _ | ⟨hsamples', hc', hneg⟩)
    cases hsamples.symm.trans hsamples'
    rwa [Except.ok.inj (hc.symm.trans hc')]
  · exact .negative hsamples hc

/-- **A prediction is confirmed exactly by samples that differ in its direction**, unless they are
without correlation. -/
theorem pointsTowards_iff_of_confirmed? [SignFaithful α] (hcorrelated : ¬ p.Uncorrelated)
    (h : confirmed? p prediction = some confirmed) :
    p.PointsTowards prediction ↔ confirmed = true := by
  obtain ⟨greater, lesser, a, b, paired, rfl, -, ha, hb, rfl⟩ |
    ⟨x, y, c, -, hsamples, hc, hsign⟩ := exists_of_confirmed? h
  · rw [pointsTowards_groupOrder_iff ha hb, decide_eq_true_iff]
  · have hzero : (c == 0) = false :=
      Bool.eq_false_iff.2 fun hzero => hcorrelated ⟨x, y, c, hsamples, hc, hzero⟩
    obtain ⟨rfl, rfl⟩ | ⟨rfl, rfl⟩ := hsign
    · rw [pointsTowards_positive_iff hsamples hc, decide_eq_true_iff,
        SignFaithful.signum_pos_iff hzero]
    · rw [pointsTowards_negative_iff hsamples hc, decide_eq_true_iff,
        SignFaithful.signum_neg_iff hzero]

end Confirmed

/-! ### One-sided results -/

section OneSided

variable {p : PairProperties α} {prediction : Prediction} {r : TestResult α}

theorem withPredictions_singleton :
    withPredictions p [prediction] r =
      match confirmed? p prediction with
      | some confirmed =>
        TestResult.makeOneSided { r with predictions := [prediction] } confirmed
      | none => { r with predictions := [prediction] } :=
  rfl

/-- A single prediction changes nothing of a result but its p-value and its sidedness. -/
theorem exists_withPredictions_singleton_eq : ∃ pValue oneSided,
    withPredictions p [prediction] r =
      { r with predictions := [prediction], pValue := pValue, oneSided := oneSided } := by
  rw [withPredictions_singleton]
  cases confirmed? p prediction with
  | none => exact ⟨_, _, rfl⟩
  | some confirmed =>
      dsimp only
      rw [TestResult.makeOneSided]
      split <;> exact ⟨_, _, rfl⟩

theorem method_withPredictions : (withPredictions p [prediction] r).method = r.method := by
  obtain ⟨_, _, heq⟩ := exists_withPredictions_singleton_eq (p := p) (r := r)
  rw [heq]

theorem effectSizes_withPredictions :
    (withPredictions p [prediction] r).effectSizes = r.effectSizes := by
  obtain ⟨_, _, heq⟩ := exists_withPredictions_singleton_eq (p := p) (r := r)
  rw [heq]

theorem pValue_makeOneSided (htwo : r.oneSided = false) (confirmed : Bool) :
    (r.makeOneSided confirmed).pValue = if confirmed then r.pValue / 2 else 1 - r.pValue / 2 := by
  simp [TestResult.makeOneSided, htwo]

/-- A single prediction that applies takes the p-value of a two-sided result towards what it says
about the samples. -/
theorem takenTowards_of_confirmed? {confirmed : Bool} (htwo : r.oneSided = false)
    (h : confirmed? p prediction = some confirmed) :
    TakenTowards r (withPredictions p [prediction] r) (confirmed = true) := by
  have hpValue := pValue_makeOneSided (r := { r with predictions := [prediction] }) htwo confirmed
  rw [withPredictions_singleton, h]
  exact ⟨fun h => hpValue.trans (if_pos h), fun h => hpValue.trans (if_neg h)⟩

/-- Of a two-sided result a single prediction makes a one-sided one only by taking its p-value
towards what it says about the samples. -/
theorem exists_confirmed_of_oneSided (htwo : r.oneSided = false)
    (hone : (withPredictions p [prediction] r).oneSided = true) :
    ∃ confirmed, confirmed? p prediction = some confirmed ∧
      TakenTowards r (withPredictions p [prediction] r) (confirmed = true) := by
  cases hconfirmed : confirmed? p prediction with
  | none =>
      rw [withPredictions_singleton, hconfirmed] at hone
      exact absurd (htwo.symm.trans hone) Bool.false_ne_true
  | some confirmed => exact ⟨confirmed, rfl, takenTowards_of_confirmed? htwo hconfirmed⟩

theorem TakenTowards.congr {twoSided : TestResult α} {towards towards' : Prop}
    (h : TakenTowards twoSided r towards) (hiff : towards' ↔ towards) :
    TakenTowards twoSided r towards' :=
  ⟨fun ht => h.halved (hiff.1 ht), fun ht => h.complemented fun ht' => ht (hiff.2 ht')⟩

end OneSided

/-! ### Effect sizes -/

section Means

variable {a b : List α}

omit [Numeric α] in
/-- The sample of a name of one of two groups; a name that both have is that of the first one. -/
theorem sampleOf?_pair_eq_some_iff {first second label : String} {s : List α} :
    (Samples.groups [first, second] [a, b]).sampleOf? label = some s ↔
      first = label ∧ a = s ∨ first ≠ label ∧ second = label ∧ b = s := by
  have hpair : (Samples.groups [first, second] [a, b]).sampleOf? label =
      if first = label then some a else if second = label then some b else none := by
    by_cases hfirst : first = label <;> by_cases hsecond : second = label <;>
      simp [Samples.sampleOf?, Samples.groups?, List.idxOf?_cons, hfirst, hsecond]
  rw [hpair]
  split <;> simp_all

theorem cohensD_eq : cohensD a b = if pooledVariance a b ≤ 0 then 0
    else (mean a - mean b) / Numeric.sqrt (pooledVariance a b) :=
  rfl

variable [SignFaithful α]

theorem lt_of_cohensD_pos (h : 0 < cohensD a b) : mean b < mean a := by
  rw [cohensD_eq] at h
  split at h
  · exact absurd h (SignFaithful.lt_asymm h)
  · rename_i hpooled
    exact SignFaithful.lt_of_sub_pos (SignFaithful.pos_of_div_sqrt hpooled h)

theorem lt_of_cohensD_neg (h : cohensD a b < 0) : mean a < mean b := by
  rw [cohensD_eq] at h
  split at h
  · exact absurd h (SignFaithful.lt_asymm h)
  · rename_i hpooled
    exact SignFaithful.lt_of_sub_neg (SignFaithful.neg_of_div_sqrt hpooled h)

/-- An effect size of two means that is not zero has the sign of their difference. -/
theorem cohensD_pos_iff (hfinite : Numeric.isFinite (cohensD a b) = true)
    (hzero : (cohensD a b == 0) = false) : 0 < cohensD a b ↔ mean b < mean a := by
  refine ⟨lt_of_cohensD_pos, fun hlt => ?_⟩
  refine (SignFaithful.pos_or_neg hfinite hzero).resolve_right fun hneg => ?_
  exact SignFaithful.lt_asymm hlt (lt_of_cohensD_neg hneg)

theorem cohensD_neg_iff (hfinite : Numeric.isFinite (cohensD a b) = true)
    (hzero : (cohensD a b == 0) = false) : cohensD a b < 0 ↔ mean a < mean b := by
  refine ⟨lt_of_cohensD_neg, fun hlt => ?_⟩
  refine (SignFaithful.pos_or_neg hfinite hzero).resolve_left fun hpos => ?_
  exact SignFaithful.lt_asymm hlt (lt_of_cohensD_pos hpos)

/-- Between two groups the effect size of their means points where the means do. -/
theorem effectTowards_means_iff {p : PairProperties α} {first second greater lesser : String}
    {a' b' : List α}
    (hsamples : p.samples = .groups [first, second] [a, b])
    (ha : p.samples.sampleOf? greater = some a') (hb : p.samples.sampleOf? lesser = some b')
    (hfinite : Numeric.isFinite (cohensD a b) = true) (hzero : (cohensD a b == 0) = false) :
    p.EffectTowards (cohensD a b) (.groupOrder greater lesser) ↔ mean b' < mean a' := by
  have hlabels : p.samples.groups? = some ([first, second], [a, b]) := by
    rw [hsamples]
    rfl
  rw [hsamples, sampleOf?_pair_eq_some_iff] at ha hb
  constructor
  · rintro (⟨hlabels', hne, hpos⟩ | ⟨hlabels', hne, hneg⟩ | _ | _)
    · cases hlabels.symm.trans hlabels'
      obtain ⟨-, rfl⟩ := ha.resolve_right fun h => h.1 rfl
      obtain ⟨-, -, rfl⟩ := hb.resolve_left fun h => hne h.1
      exact lt_of_cohensD_pos hpos
    · cases hlabels.symm.trans hlabels'
      obtain ⟨-, -, rfl⟩ := ha.resolve_left fun h => hne h.1
      obtain ⟨-, rfl⟩ := hb.resolve_right fun h => h.1 rfl
      exact lt_of_cohensD_neg hneg
  · intro hlt
    have hself (s : List α) : ¬ mean s < mean s := fun h => SignFaithful.lt_asymm h h
    obtain ⟨rfl, rfl⟩ | ⟨hne, rfl, rfl⟩ := ha <;> obtain ⟨rfl, rfl⟩ | ⟨hne', rfl, rfl⟩ := hb
    · exact absurd hlt (hself _)
    · exact .first hlabels hne' ((cohensD_pos_iff hfinite hzero).2 hlt)
    · exact .second hlabels hne ((cohensD_neg_iff hfinite hzero).2 hlt)
    · exact absurd hlt (hself _)

end Means

section Effects

variable {x : Execution α} {e : α}

theorem get?_ofEffect {output : TestOutput α} {name name' : String} {size e : α}
    (h : (Execution.ofEffect output name size).effectSizes.get? name' = some e) :
    size = e ∧ Numeric.isFinite e = true := by
  rw [Execution.ofEffect] at h
  dsimp only at h
  split at h
  · rename_i hfinite
    rw [NameMap.get?_insert] at h
    split at h
    · obtain rfl := Option.some.inj h
      exact ⟨rfl, hfinite⟩
    · cases h
  · cases h

omit [Numeric α] in
theorem eq_of_twoSamples {method : TestMethod} {samples : List (List α)} {a b : List α}
    (h : twoSamples method samples = .ok (a, b)) : samples = [a, b] := by
  unfold twoSamples at h
  split at h
  · cases h
    rfl
  · cases h

variable [Tails α] {σ : Type} {source : DrawSource σ} {start : σ} {resamples : Nat}
  {samples : Samples α}

/-- The effect size of a t-test of two groups is that of their means. -/
theorem exists_of_runTest_means {method : TestMethod} (hm : method ∈ [.studentsT, .welchT])
    (h : runTest source start resamples method samples = .ok x) :
    ∃ labels a b output, samples = .groups labels [a, b] ∧
      x = .ofEffect output "cohens_d" (cohensD a b) := by
  simp only [List.mem_cons, List.not_mem_nil, or_false] at hm
  rcases hm with rfl | rfl <;>
  · cases samples with
    | groups labels samples =>
        obtain ⟨⟨a, b⟩, hpair, hrest⟩ := bind_eq_ok_iff.1 h
        obtain ⟨output, -, hx⟩ := bind_eq_ok_iff.1 hrest
        rw [eq_of_twoSamples hpair]
        exact ⟨labels, a, b, output, rfl, (Except.ok.inj hx).symm⟩
    | paired | bivariate | contingency => cases h

theorem statistic_of_correlationTest {c : α} {n : Nat} {output : TestOutput α}
    (h : correlationTest c n = .ok output) : output.statistic = c := by
  unfold correlationTest at h
  dsimp only at h
  split at h
  · rw [← Except.ok.inj h]
    rfl
  · obtain ⟨pValue, -, h⟩ := bind_eq_ok_iff.1 h
    rw [← Except.ok.inj h]
    rfl

/-- The effect size of the test of the product-moment correlation is the coefficient. -/
theorem exists_of_runTest_pearson (h : runTest source start resamples .pearson samples = .ok x) :
    ∃ a b c output, samples = .bivariate a b ∧ correlation a b = .ok c ∧
      x = .ofEffect output "r" c := by
  cases samples with
  | groups | paired | contingency => cases h
  | bivariate a b =>
      obtain ⟨output, houtput, hx⟩ := bind_eq_ok_iff.1 h
      rw [pearson] at houtput
      obtain ⟨_, -, houtput⟩ := bind_eq_ok_iff.1 houtput
      obtain ⟨_, -, houtput⟩ := bind_eq_ok_iff.1 houtput
      obtain ⟨c, hc, houtput⟩ := bind_eq_ok_iff.1 houtput
      refine ⟨a, b, c, output, rfl, hc, ?_⟩
      rw [← Except.ok.inj hx, statistic_of_correlationTest houtput]

variable {p : PairProperties α} {prediction : Prediction}

/-- Samples with an effect size that is not zero are not without correlation. -/
theorem not_uncorrelated_of_effect {method : TestMethod} {name : String}
    (hm : method ∈ [.studentsT, .welchT, .pearson])
    (hrun : runTest source start resamples method p.samples = .ok x)
    (he : x.effectSizes.get? name = some e) (hzero : (e == 0) = false) : ¬ p.Uncorrelated := by
  rintro ⟨x', y', c, hsamples, hc, hzero'⟩
  by_cases hmeans : method ∈ [.studentsT, .welchT]
  · obtain ⟨_, _, _, _, hgroups, -⟩ := exists_of_runTest_means hmeans hrun
    cases hsamples.symm.trans hgroups
  · obtain rfl : method = .pearson := by
      simp only [List.mem_cons, List.not_mem_nil, or_false] at hm hmeans
      tauto
    obtain ⟨_, _, c', output, hsamples', hc', rfl⟩ := exists_of_runTest_pearson hrun
    obtain ⟨rfl, -⟩ := get?_ofEffect he
    cases hsamples.symm.trans hsamples'
    obtain rfl := Except.ok.inj (hc.symm.trans hc')
    exact Bool.false_ne_true (hzero.symm.trans hzero')

/-- **The effect size of a test of means or of the product-moment correlation has the direction of
the samples**, as far as it has one. -/
theorem effectTowards_iff_pointsTowards [SignFaithful α] {confirmed : Bool}
    {method : TestMethod} {name : String}
    (hfits : p.samples.Fits p.shape) (hm : method ∈ [.studentsT, .welchT, .pearson])
    (hrun : runTest source start resamples method p.samples = .ok x)
    (h : confirmed? p prediction = some confirmed) (he : x.effectSizes.get? name = some e)
    (hzero : (e == 0) = false) : p.EffectTowards e prediction ↔ p.PointsTowards prediction := by
  by_cases hmeans : method ∈ [.studentsT, .welchT]
  · obtain ⟨labels, a, b, output, hsamples, rfl⟩ := exists_of_runTest_means hmeans hrun
    obtain ⟨rfl, hfinite⟩ := get?_ofEffect he
    obtain ⟨greater, lesser, a', b', _, rfl, -, ha, hb, -⟩ | ⟨_, _, _, -, hbivariate, -⟩ :=
      exists_of_confirmed? h
    · rw [hsamples] at hfits
      have htwo : labels.length = 2 := (hfits.length_eq rfl).symm
      obtain ⟨first, second, rfl⟩ := List.length_eq_two.1 htwo
      rw [effectTowards_means_iff hsamples ha hb hfinite hzero,
        pointsTowards_groupOrder_iff ha hb]
    · cases hsamples.symm.trans hbivariate
  · obtain rfl : method = .pearson := by
      simp only [List.mem_cons, List.not_mem_nil, or_false] at hm hmeans
      tauto
    obtain ⟨x', y', c, output, hsamples, hc, rfl⟩ := exists_of_runTest_pearson hrun
    obtain ⟨rfl, -⟩ := get?_ofEffect he
    obtain ⟨_, _, _, _, _, -, -, ha, -⟩ | ⟨_, _, _, -, -, -, hsign⟩ := exists_of_confirmed? h
    · rw [hsamples] at ha
      cases ha
    · obtain ⟨rfl, -⟩ | ⟨rfl, -⟩ := hsign
      · rw [pointsTowards_positive_iff hsamples hc]
        exact ⟨fun h => by cases h; assumption, .positive⟩
      · rw [pointsTowards_negative_iff hsamples hc]
        exact ⟨fun h => by cases h; assumption, .negative⟩

end Effects

/-! ### Comparisons -/

section Comparisons

variable [Tails α]

/-- What a single prediction makes of the two-sided result of a comparison.  A one-sided p-value is
taken towards the direction of the samples; for a test of means or of the product-moment correlation
this is the direction of its effect size. -/
structure FollowsDirection (prediction : Prediction) (p : PairProperties α)
    (twoSided r : TestResult α) : Prop where
  isTwoSided : twoSided.oneSided = false
  method_eq : r.method = twoSided.method
  effectSizes_eq : r.effectSizes = twoSided.effectSizes
  bySamples : r.oneSided = true → ¬ p.Uncorrelated →
    TakenTowards twoSided r (p.PointsTowards prediction)
  byEffect : r.oneSided = true → r.method ∈ [.studentsT, .welchT, .pearson] →
    ∀ name e, r.effectSizes.get? name = some e → (e == 0) = false →
      TakenTowards twoSided r (p.EffectTowards e prediction)

variable {settings : Settings α} {declared : Declared} {p : PairProperties α}
  {predictions : List Prediction} {prediction : Prediction} {r : TestResult α}

theorem testComparison_eq_ok_iff :
    testComparison settings declared predictions p = .ok r ↔
      ∃ s x, select p (evidence p settings) (declared.forVariables p.names) settings = .ok s ∧
        execute s.method p.samples settings = .ok x ∧
        withPredictions p predictions (.ofExecution s x p settings) = r := by
  simp only [testComparison, bind_eq_ok_iff, pure_eq_ok, Except.ok.injEq]
  constructor
  · rintro ⟨s, hs, x, hx, hr⟩
    exact ⟨s, x, hs, hx, hr⟩
  · rintro ⟨s, x, hs, hx, hr⟩
    exact ⟨s, hs, x, hx, hr⟩

/-- Predictions come after the test: they only change its two-sided result. -/
theorem testComparison_eq_map :
    testComparison settings declared predictions p =
      (testComparison settings declared [] p).map (withPredictions p predictions) := by
  simp only [testComparison]
  cases select p (evidence p settings) (declared.forVariables p.names) settings with
  | error err => rfl
  | ok s =>
      rw [ok_bind, ok_bind]
      cases execute s.method p.samples settings <;> rfl

/-- A two-sided result stays as it is without predictions. -/
theorem withPredictions_nil_of_testComparison
    (h : testComparison settings declared [] p = .ok r) : withPredictions p [] r = r := by
  obtain ⟨s, x, -, -, rfl⟩ := testComparison_eq_ok_iff.1 h
  rfl

/-- Under any prediction the two-sided result of a comparison follows the direction of its
samples. -/
theorem followsDirection_of_testComparison [SignFaithful α] (hfits : p.samples.Fits p.shape)
    (h : testComparison settings declared [] p = .ok r) :
    FollowsDirection prediction p r (withPredictions p [prediction] r) := by
  obtain ⟨s, x, hs, hx, rfl⟩ := testComparison_eq_ok_iff.1 h
  have hrun := mapError_eq_ok_iff.1 hx
  refine ⟨rfl, method_withPredictions, effectSizes_withPredictions, ?_, ?_⟩
  · intro hone hcorrelated
    obtain ⟨confirmed, hconfirmed, htaken⟩ := exists_confirmed_of_oneSided rfl hone
    exact htaken.congr (pointsTowards_iff_of_confirmed? hcorrelated hconfirmed)
  · intro hone hm name e he hzero
    rw [method_withPredictions] at hm
    rw [effectSizes_withPredictions] at he
    obtain ⟨confirmed, hconfirmed, htaken⟩ := exists_confirmed_of_oneSided rfl hone
    have hcorrelated := not_uncorrelated_of_effect hm hrun he hzero
    exact htaken.congr ((effectTowards_iff_pointsTowards hfits hm hrun hconfirmed he hzero).trans
      (pointsTowards_iff_of_confirmed? hcorrelated hconfirmed))

/-- Comparisons that are tested under predictions are tested without any too. -/
theorem exists_tested {pairs : List (PairProperties α)} {results : List (TestResult α)}
    (h : pairs.mapM (testComparison settings declared predictions) = .ok results) :
    ∃ tested : List (PairProperties α × TestResult α), tested.map (·.1) = pairs ∧
      (∀ q ∈ tested, testComparison settings declared [] q.1 = .ok q.2) ∧
      tested.map (fun q => withPredictions q.1 predictions q.2) = results := by
  induction mapM_eq_ok_iff.1 h with
  | nil => exact ⟨[], rfl, List.forall_mem_nil _, rfl⟩
  | @cons p r _ _ hr hrest ih =>
      rw [testComparison_eq_map] at hr
      obtain ⟨u, hu, rfl⟩ := map_eq_ok_iff.1 hr
      obtain ⟨tested, rfl, htwoSided, rfl⟩ := ih (mapM_eq_ok_iff.2 hrest)
      exact ⟨(p, u) :: tested, rfl, List.forall_mem_cons.2 ⟨hu, htwoSided⟩, rfl⟩

end Comparisons

/-! ### Hypotheses -/

section Hypotheses

variable [Tails α] [NumberText α] {d : Dataset α} {ctx : Context α}
  {operands : List (Expression α)} {kind : HypothesisKind} {predictions : List Prediction}
  {prediction : Prediction} {x : Evaluated α}

/-- The comparisons that a hypothesis about some operands makes, on the rows that all of them
have. -/
def Compares (d : Dataset α) (ctx : Context α) (operands : List (Expression α))
    (pairs : List (PairProperties α)) : Prop :=
  ∃ design bindings c, ctx.design = some design ∧
    operands.mapM (evaluateBinding d ctx) = .ok bindings ∧
    combine d (bindings.map (·.restrict (Binding.commonRows bindings))) design = .ok c ∧
    c.pairs = pairs

theorem Compares.unique {pairs pairs' : List (PairProperties α)}
    (h : Compares d ctx operands pairs) (h' : Compares d ctx operands pairs') : pairs = pairs' := by
  obtain ⟨design, bindings, c, hdesign, hbindings, hc, rfl⟩ := h
  obtain ⟨design', bindings', c', hdesign', hbindings', hc', rfl⟩ := h'
  obtain rfl := Option.some.inj (hdesign.symm.trans hdesign')
  obtain rfl := Except.ok.inj (hbindings.symm.trans hbindings')
  rw [Except.ok.inj (hc.symm.trans hc')]

theorem testBindings_eq_ok_iff {settings : Settings α} {declared : Declared} {design : Design α}
    {bindings : List (Binding α)} {results : List (TestResult α)} :
    testBindings d settings declared design bindings predictions = .ok results ↔
      checkPredictions (bindings.map (·.restrict (Binding.commonRows bindings))) predictions =
          .ok () ∧
        ∃ c, combine d (bindings.map (·.restrict (Binding.commonRows bindings))) design = .ok c ∧
          c.pairs.mapM (testComparison settings declared predictions) = .ok results := by
  simp only [testBindings, bind_eq_ok_iff]
  constructor
  · rintro ⟨⟨⟩, hchecked, c, hc, hresults⟩
    exact ⟨hchecked, c, hc, hresults⟩
  · rintro ⟨hchecked, c, hc, hresults⟩
    exact ⟨⟨⟩, hchecked, c, hc, hresults⟩

/-- A hypothesis that is tested under predictions is tested without any and under all others that
are accepted too, in the same comparisons, and predictions only change the two-sided results. -/
theorem exists_tested_of_evaluate
    (h : evaluate d ctx (.hypothesis kind operands predictions) = .ok x) :
    ∃ tested : List (PairProperties α × TestResult α), Compares d ctx operands (tested.map (·.1)) ∧
      evaluate d ctx (.hypothesis kind operands []) = .ok (.tested (tested.map (·.2))) ∧
      x = .tested (tested.map fun q => withPredictions q.1 predictions q.2) ∧
      (∀ q ∈ tested, q.1.samples.Fits q.1.shape ∧
        ∃ settings, testComparison settings ctx.declared [] q.1 = .ok q.2) ∧
      ∀ predictions', (∀ bindings : List (Binding α),
          checkPredictions bindings predictions = .ok () →
            checkPredictions bindings predictions' = .ok ()) →
        evaluate d ctx (.hypothesis kind operands predictions') =
          .ok (.tested (tested.map fun q => withPredictions q.1 predictions' q.2)) := by
  obtain ⟨design, bindings, results, hdesign, hvalid, hlength, hbindings, hliteral, hresults,
    rfl⟩ := evaluate_hypothesis_eq_ok_iff.1 h
  obtain ⟨hchecked, c, hc, hresults⟩ := testBindings_eq_ok_iff.1 hresults
  obtain ⟨tested, hpairs, htwoSided, rfl⟩ := exists_tested hresults
  have hothers : ∀ predictions', (∀ bindings : List (Binding α),
      checkPredictions bindings predictions = .ok () →
        checkPredictions bindings predictions' = .ok ()) →
      evaluate d ctx (.hypothesis kind operands predictions') =
        .ok (.tested (tested.map fun q => withPredictions q.1 predictions' q.2)) := by
    intro predictions' haccepted
    have hresults' : c.pairs.mapM
        (testComparison (ctx.settings.forDesign design) ctx.declared predictions') =
        .ok (tested.map fun q => withPredictions q.1 predictions' q.2) := by
      rw [mapM_eq_ok_iff, ← hpairs, List.forall₂_map_left_iff, List.forall₂_map_right_iff,
        List.forall₂_same]
      intro q hq
      rw [testComparison_eq_map, htwoSided q hq]
      rfl
    exact evaluate_hypothesis_eq_ok_iff.2 ⟨design, bindings, _, hdesign, hvalid, hlength, hbindings,
      hliteral, testBindings_eq_ok_iff.2 ⟨haccepted _ hchecked, c, hc, hresults'⟩, rfl⟩
  have hunchanged : (tested.map fun q => withPredictions q.1 [] q.2) = tested.map (·.2) :=
    List.map_congr_left fun q hq => withPredictions_nil_of_testComparison (htwoSided q hq)
  refine ⟨tested, ⟨design, bindings, c, hdesign, hbindings, hc, hpairs.symm⟩, ?_, rfl,
    fun q hq => ⟨fits_of_combine hc ?_, _, htwoSided q hq⟩, hothers⟩
  · rw [hothers [] fun _ _ => rfl, hunchanged]
  · rw [← hpairs]
    exact List.mem_map_of_mem hq

/-- A hypothesis that is tested under predictions is tested without any too, in the same
comparisons, and the predictions only change the two-sided results. -/
theorem exists_twoSided_of_evaluate
    (h : evaluate d ctx (.hypothesis kind operands predictions) = .ok x) :
    ∃ tested : List (PairProperties α × TestResult α), Compares d ctx operands (tested.map (·.1)) ∧
      evaluate d ctx (.hypothesis kind operands []) = .ok (.tested (tested.map (·.2))) ∧
      x = .tested (tested.map fun q => withPredictions q.1 predictions q.2) ∧
      ∀ q ∈ tested, q.1.samples.Fits q.1.shape ∧
        ∃ settings, testComparison settings ctx.declared [] q.1 = .ok q.2 := by
  obtain ⟨tested, hcompares, htwoSided, hx, hall, -⟩ := exists_tested_of_evaluate h
  exact ⟨tested, hcompares, htwoSided, hx, hall⟩

/-- **Every one-sided result follows the direction of its samples.**  A hypothesis that is tested
under a single prediction is tested without one too, in the same comparisons.  Where the result is
one-sided, its p-value is half of the two-sided one exactly if the samples differ in the predicted
direction, and what that half lacks to one otherwise; for tests of means and of the product-moment
correlation this is the direction of the effect size of the result. -/
theorem evaluate_follows_direction [SignFaithful α]
    (h : evaluate d ctx (.hypothesis kind operands [prediction]) = .ok x) :
    ∃ (tested : List (PairProperties α × TestResult α)) (results : List (TestResult α)),
      x = .tested results ∧ Compares d ctx operands (tested.map (·.1)) ∧
      evaluate d ctx (.hypothesis kind operands []) = .ok (.tested (tested.map (·.2))) ∧
      List.Forall₂ (fun q r => FollowsDirection prediction q.1 q.2 r) tested results := by
  obtain ⟨tested, hcompares, htwoSided, rfl, hall⟩ := exists_twoSided_of_evaluate h
  refine ⟨tested, _, rfl, hcompares, htwoSided, ?_⟩
  rw [List.forall₂_map_right_iff, List.forall₂_same]
  intro q hq
  obtain ⟨hfits, settings, hresult⟩ := hall q hq
  exact followsDirection_of_testComparison hfits hresult

end Hypotheses

/-! ### Three doses -/

/-- Three doses and the responses to them; the response to the least one is the greatest. -/
def doses : Dataset Float where
  columns := .ofList [
    ("dose", ⟨⟨"dose", .ratio, none⟩, [.real 0, .real 1, .real 10]⟩),
    ("response", ⟨⟨"response", .ratio, none⟩, [.real 10, .real 0, .real 9]⟩)]
  rowCount := 3
  key := none

/-- A study of the doses, in which some assumptions are declared. -/
def doseStudy (declared : AssumptionSet) : Context Float :=
  ⟨.standard, some (.observational ["dose"] ["response"]), ⟨declared, ∅⟩⟩

/-- The hypothesis that doses and responses are related, under some predictions. -/
def doseHypothesis (predictions : List Prediction) : Expression Float :=
  .hypothesis .relate [.column "dose", .column "response"] predictions

/-- Whether there is a single one-sided result, of the given test and with a named effect size that
has a property. -/
def hasOneSided (method : TestMethod) (effect : String) (property : Float → Bool)
    (x : Except (AnalysisError Float) (Evaluated Float)) : Bool :=
  match x with
  | .ok (.tested [r]) =>
    r.oneSided && decide (r.method = method) && (r.effectSizes.get? effect).any property
  | _ => false

theorem exists_of_hasOneSided {method : TestMethod} {effect : String} {property : Float → Bool}
    {x : Except (AnalysisError Float) (Evaluated Float)}
    (h : hasOneSided method effect property x = true) :
    ∃ r e, x = .ok (.tested [r]) ∧ r.oneSided = true ∧ r.method = method ∧
      r.effectSizes.get? effect = some e ∧ property e = true := by
  unfold hasOneSided at h
  split at h
  · rename_i r
    rw [Bool.and_eq_true, Bool.and_eq_true, decide_eq_true_iff, Option.any_eq_true] at h
    obtain ⟨⟨hone, hm⟩, e, he, hproperty⟩ := h
    exact ⟨r, e, rfl, hone, hm, he, hproperty⟩
  · cases h

/-- The doses and the responses are compared by a positive product-moment correlation. -/
theorem exists_of_compares_doses {declared : AssumptionSet} {pairs : List (PairProperties Float)}
    (h : Compares doses (doseStudy declared) [.column "dose", .column "response"] pairs) :
    ∃ p, pairs = [p] ∧ ¬ p.Uncorrelated ∧ p.PointsTowards .positive ∧
      ¬ p.PointsTowards .negative := by
  obtain ⟨p, hcompares, hsamples⟩ : ∃ p,
      Compares doses (doseStudy declared) [.column "dose", .column "response"] [p] ∧
        p.samples = .bivariate [0, 1, 10] [10, 0, 9] :=
    ⟨_, ⟨_, _, _, rfl, rfl, rfl, rfl⟩, rfl⟩
  have hsign : (correlation [(0 : Float), 1, 10] [10, 0, 9]).toOption.any
      (fun c => decide (0 < c) && !(c == 0)) = true := by decide +kernel
  obtain ⟨c, hc, hsign⟩ := (Option.any_eq_true _ _).1 hsign
  rw [Bool.and_eq_true, decide_eq_true_iff, Bool.not_eq_true'] at hsign
  obtain ⟨hpos, hzero⟩ := hsign
  rw [toOption_eq_some_iff] at hc
  refine ⟨p, h.unique hcompares, ?_, .positive hsamples hc hpos, ?_⟩
  · rintro ⟨x, y, c', hsamples', hc', hzero'⟩
    cases hsamples.symm.trans hsamples'
    cases hc.symm.trans hc'
    exact Bool.false_ne_true (hzero.symm.trans hzero')
  · rw [pointsTowards_negative_iff hsamples hc]
    exact SignFaithful.lt_asymm hpos

/-- What a single prediction makes of the comparison of the doses with the responses. -/
theorem exists_followsDirection_doses {declared : AssumptionSet} {prediction : Prediction}
    {r : TestResult Float}
    (h : evaluate doses (doseStudy declared) (doseHypothesis [prediction]) = .ok (.tested [r])) :
    ∃ p u, Compares doses (doseStudy declared) [.column "dose", .column "response"] [p] ∧
      evaluate doses (doseStudy declared) (doseHypothesis []) = .ok (.tested [u]) ∧
      FollowsDirection prediction p u r ∧ ¬ p.Uncorrelated ∧ p.PointsTowards .positive ∧
      ¬ p.PointsTowards .negative := by
  obtain ⟨tested, hcompares, htwoSided, hresults, hall⟩ := exists_twoSided_of_evaluate h
  obtain ⟨p, hp, hcorrelated, hpositive, hnegative⟩ := exists_of_compares_doses hcompares
  obtain ⟨⟨p', u⟩, rfl, rfl⟩ := List.map_eq_singleton_iff.1 hp
  obtain rfl := List.singleton_inj.1 (Evaluated.tested.inj hresults)
  obtain ⟨hfits, settings, hu⟩ := hall _ (List.mem_singleton_self _)
  exact ⟨p', u, hcompares, htwoSided, followsDirection_of_testComparison hfits hu, hcorrelated,
    hpositive, hnegative⟩

/-- The sign of Kendall's coefficient does not decide: that of the doses is negative, and yet the
p-value is halved towards a positive relation and not towards a negative one. -/
theorem halved_against_tau :
    let hypothesis predictions := evaluate doses (doseStudy ∅) (doseHypothesis predictions)
    ∃ p u r r' tau,
      Compares doses (doseStudy ∅) [.column "dose", .column "response"] [p] ∧
      hypothesis [] = .ok (.tested [u]) ∧ u.oneSided = false ∧
      hypothesis [.positive] = .ok (.tested [r]) ∧ r.method = .kendallTau ∧ r.oneSided = true ∧
      r.effectSizes.get? "tau" = some tau ∧ ¬ p.EffectTowards tau .positive ∧
      r.pValue = u.pValue / 2 ∧
      hypothesis [.negative] = .ok (.tested [r']) ∧ r'.method = .kendallTau ∧ r'.oneSided = true ∧
      r'.effectSizes.get? "tau" = some tau ∧ p.EffectTowards tau .negative ∧
      r'.pValue = 1 - u.pValue / 2 := by
  intro hypothesis
  have hpositive : hasOneSided .kendallTau "tau" (· < 0) (hypothesis [.positive]) = true := by
    decide +kernel
  have hnegative : hasOneSided .kendallTau "tau" (· < 0) (hypothesis [.negative]) = true := by
    decide +kernel
  obtain ⟨r, tau, hr, hone, hm, htau, hsign⟩ := exists_of_hasOneSided hpositive
  obtain ⟨r', _, hr', hone', hm', -, -⟩ := exists_of_hasOneSided hnegative
  rw [decide_eq_true_iff] at hsign
  obtain ⟨p, u, hp, hu, hfollows, hcorrelated, htowards, -⟩ := exists_followsDirection_doses hr
  obtain ⟨p', u', hp', hu', hfollows', -, -, hagainst⟩ := exists_followsDirection_doses hr'
  obtain rfl := List.singleton_inj.1 (hp.unique hp')
  obtain rfl := List.singleton_inj.1 (Evaluated.tested.inj (Except.ok.inj (hu.symm.trans hu')))
  have hsame : r'.effectSizes = r.effectSizes :=
    hfollows'.effectSizes_eq.trans hfollows.effectSizes_eq.symm
  refine ⟨p, u, r, r', tau, hp, hu, hfollows.isTwoSided, hr, hm, hone, htau, ?_,
    (hfollows.bySamples hone hcorrelated).halved htowards, hr', hm', hone', hsame ▸ htau,
    .negative hsign, (hfollows'.bySamples hone' hcorrelated).complemented hagainst⟩
  rintro (_ | _ | hpos | _)
  exact SignFaithful.lt_asymm hpos hsign

/-- If the relation is declared to be linear and normal, Pearson's coefficient is tested, which is
positive, and its p-value is halved towards a positive relation. -/
theorem evaluate_linear_doses_follows_direction :
    let hypothesis predictions :=
      evaluate doses (doseStudy (.ofList [.linearRelationship, .bivariateNormal]))
        (doseHypothesis predictions)
    ∃ u r c, hypothesis [] = .ok (.tested [u]) ∧ hypothesis [.positive] = .ok (.tested [r]) ∧
      r.method = .pearson ∧ r.oneSided = true ∧ r.effectSizes.get? "r" = some c ∧ 0 < c ∧
      r.pValue = u.pValue / 2 := by
  intro hypothesis
  have hpositive : hasOneSided .pearson "r" (fun c => decide (0 < c) && !(c == 0))
      (hypothesis [.positive]) = true := by
    decide +kernel
  obtain ⟨r, c, hr, hone, hm, hc, hsign⟩ := exists_of_hasOneSided hpositive
  rw [Bool.and_eq_true, decide_eq_true_iff, Bool.not_eq_true'] at hsign
  obtain ⟨hpos, hzero⟩ := hsign
  obtain ⟨tested, results, hresults, -, htwoSided, hall⟩ := evaluate_follows_direction hr
  obtain rfl := Evaluated.tested.inj hresults
  cases hall with
  | @cons q _ _ _ hfollows htail =>
      cases htail
      have htaken := hfollows.byEffect hone (by rw [hm]; decide) "r" c hc hzero
      exact ⟨q.2, r, c, htwoSided, hr, hm, hone, hc, hpos, htaken.halved (.positive hpos)⟩

end StudyAnalysis
