/-
**A lower threshold and more declarations never lead to a less demanding test.**

The significance threshold decides about several assumptions at once, and about some of them through
a conjunction over any number of samples.  Verdicts are compared by how favourable they are: where a
verdict is favourable, a more favourable one is too, and where it is unfavourable, a less favourable
one is too.  A lower threshold makes the verdict on every assumption more favourable, and nothing
else about the evidence changes.  So more assumptions are taken to hold, and since the chosen test is
the best one that they allow, it relies on no fewer of them.

Main definitions:

* `StudyAnalysis.Verdict.NoWorse` — a verdict is at least as favourable as another one.

Main results:

* `StudyAnalysis.mem_holds_evidence`, `StudyAnalysis.mem_violated_evidence` — the evidence holds the
  verdict on each assumption;
* `StudyAnalysis.verdictOn_noWorse` — a lower threshold leads to no worse verdicts;
* `StudyAnalysis.satisfiedSet_mono` — what is taken to hold grows with the evidence and the
  declarations;
* `StudyAnalysis.select_antitone_threshold` — **the chosen test is no less demanding**.
-/

import Mathlib
import StudyAnalysis.Proofs.Number.Order
import StudyAnalysis.Proofs.Selection.Optimal

set_option autoImplicit false
set_option relaxedAutoImplicit false

namespace StudyAnalysis

variable {α : Type}

/-! ### Verdicts -/

namespace Verdict

/-- A verdict is at least as favourable as another one. -/
structure NoWorse (v w : Option Bool) : Prop where
  holds : w = some true → v = some true
  violated : v = some false → w = some false

theorem NoWorse.refl (v : Option Bool) : NoWorse v v :=
  ⟨id, id⟩

/-- The verdict that a check keeps its null hypothesis gets no worse when the check becomes easier. -/
theorem noWorse_map_decide {β : Type} {p q : β → Prop} [DecidablePred p] [DecidablePred q]
    (h : ∀ x, q x → p x) (test : Option β) :
    NoWorse (test.map fun x => decide (p x)) (test.map fun x => decide (q x)) := by
  cases test with
  | none => exact .refl none
  | some x =>
      constructor
      · intro hq
        simp only [Option.map_some, Option.some.injEq, decide_eq_true_eq] at hq ⊢
        exact h x hq
      · intro hp
        simp only [Option.map_some, Option.some.injEq, decide_eq_false_iff_not] at hp ⊢
        exact fun hq => hp (h x hq)

end Verdict

open Verdict

/-- A conjunction fails exactly if one of its parts does. -/
theorem allVerdicts_eq_some_false_iff {vs : List (Option Bool)} :
    allVerdicts vs = some false ↔ some false ∈ vs := by
  simp only [allVerdicts, List.contains_iff_mem]
  by_cases hfalse : some false ∈ vs
  · rw [if_pos hfalse]
    exact iff_of_true rfl hfalse
  · rw [if_neg hfalse]
    refine iff_of_false ?_ hfalse
    split <;> exact fun h => nomatch h

/-- A conjunction holds exactly if there are parts and all of them hold. -/
theorem allVerdicts_eq_some_true_iff {vs : List (Option Bool)} :
    allVerdicts vs = some true ↔ vs ≠ [] ∧ ∀ v ∈ vs, v = some true := by
  simp only [allVerdicts, Bool.or_eq_true, List.isEmpty_iff, List.contains_iff_mem]
  by_cases hfalse : some false ∈ vs
  · rw [if_pos hfalse]
    exact iff_of_false (fun h => nomatch h) fun h => nomatch h.2 _ hfalse
  rw [if_neg hfalse]
  by_cases hunknown : vs = [] ∨ none ∈ vs
  · rw [if_pos hunknown]
    refine iff_of_false (fun h => nomatch h) fun ⟨hne, hall⟩ => ?_
    exact hunknown.elim hne fun hnone => nomatch hall none hnone
  · rw [if_neg hunknown]
    rw [not_or] at hunknown
    refine iff_of_true rfl ⟨hunknown.1, fun v hv => ?_⟩
    match v with
    | some true => rfl
    | some false => exact absurd hv hfalse
    | none => exact absurd hv hunknown.2

/-- A conjunction of verdicts that are no worse is no worse. -/
theorem allVerdicts_noWorse {vs ws : List (Option Bool)} (h : List.Forall₂ NoWorse vs ws) :
    NoWorse (allVerdicts vs) (allVerdicts ws) := by
  constructor
  · rw [allVerdicts_eq_some_true_iff, allVerdicts_eq_some_true_iff]
    rintro ⟨hne, hall⟩
    refine ⟨fun hnil => hne ?_, ?_⟩
    · subst hnil
      exact List.forall₂_nil_left_iff.1 h
    · clear hne
      induction h with
      | nil => exact fun v hv => nomatch hv
      | cons hvw _ ih =>
          rw [List.forall_mem_cons] at hall ⊢
          exact ⟨hvw.holds hall.1, ih hall.2⟩
  · rw [allVerdicts_eq_some_false_iff, allVerdicts_eq_some_false_iff]
    intro hmem
    induction h with
    | nil => cases hmem
    | cons hvw _ ih =>
        rcases List.mem_cons.1 hmem with hfalse | hmem
        · exact List.mem_cons.2 (.inl (hvw.violated hfalse.symm).symm)
        · exact List.mem_cons_of_mem _ (ih hmem)

/-! ### Evidence -/

section Record

variable {e : Evidence} {flags : AssumptionSet} {b : Assumption} {verdict : Option Bool}

theorem mem_holds_record :
    b ∈ (e.record flags verdict).holds ↔
      if b ∈ flags then verdict = some true else b ∈ e.holds := by
  match verdict with
  | some true | some false | none => by_cases h : b ∈ flags <;> simp [Evidence.record, h]

theorem mem_violated_record :
    b ∈ (e.record flags verdict).violated ↔
      if b ∈ flags then verdict = some false else b ∈ e.violated := by
  match verdict with
  | some true | some false | none => by_cases h : b ∈ flags <;> simp [Evidence.record, h]

/-- Verdicts on single assumptions are kept as they are given. -/
theorem mem_foldl_record {verdictOf : Assumption → Option Bool} {as : List Assumption} :
    let e' := (as.map fun a => (({a} : AssumptionSet), verdictOf a)).foldl
      (fun e r => e.record r.1 r.2) e
    (b ∈ e'.holds ↔ if b ∈ as then verdictOf b = some true else b ∈ e.holds) ∧
      (b ∈ e'.violated ↔ if b ∈ as then verdictOf b = some false else b ∈ e.violated) := by
  intro e'
  induction as generalizing e with
  | nil => simp [e']
  | cons a as ih =>
      have h := ih (e := e.record {a} (verdictOf a))
      simp only [mem_holds_record, mem_violated_record, AssumptionSet.mem_singleton] at h
      by_cases hmem : b ∈ as
      · simpa [e', hmem] using h
      · by_cases hba : b = a
        · subst hba
          simpa [e', hmem] using h
        · simpa [e', hmem, hba] using h

end Record

section Threshold

variable [Numeric α] {p : PairProperties α} {settings : Settings α}

/-- The evidence supports an assumption exactly if the verdict on it is favourable. -/
theorem mem_holds_evidence {a : Assumption} :
    a ∈ (evidence p settings).holds ↔ verdictOn p settings a = some true := by
  rw [evidence, Evidence.ofRecords, mem_foldl_record.1, if_pos (Assumption.mem_all a)]

/-- The evidence contradicts an assumption exactly if the verdict on it is unfavourable. -/
theorem mem_violated_evidence {a : Assumption} :
    a ∈ (evidence p settings).violated ↔ verdictOn p settings a = some false := by
  rw [evidence, Evidence.ofRecords, mem_foldl_record.2, if_pos (Assumption.mem_all a)]

variable [OrderFaithful α] {a₁ a₂ : α}

theorem nullKept_noWorse (h : a₁ ≤ a₂) (test : Option (TestOutput α)) :
    NoWorse (nullKept a₁ test) (nullKept a₂ test) :=
  noWorse_map_decide (fun _ hle => OrderFaithful.le_trans h hle) test

theorem normalSamples_noWorse (h : a₁ ≤ a₂) :
    NoWorse (normalSamples p (settings.withAlpha a₁)) (normalSamples p (settings.withAlpha a₂)) := by
  rw [normalSamples, normalSamples]
  split
  · exact .refl none
  · refine allVerdicts_noWorse ?_
    rw [List.forall₂_map_left_iff, List.forall₂_map_right_iff, List.forall₂_same]
    exact fun test _ => nullKept_noWorse h test

/-- **A lower threshold leads to no worse verdicts.** -/
theorem verdictOn_noWorse (h : a₁ ≤ a₂) (a : Assumption) :
    NoWorse (verdictOn p (settings.withAlpha a₁) a) (verdictOn p (settings.withAlpha a₂) a) := by
  cases a with
  | normalDistribution => exact normalSamples_noWorse h
  | normalDifferences | symmetricDifferences | equalVariances => exact nullKept_noWorse h _
  | bivariateNormal =>
      rw [verdictOn, verdictOn]
      split
      · exact normalSamples_noWorse h
      · exact .refl none
  | _ => exact .refl _

end Threshold

/-! ### The choice -/

/-- What is taken to hold grows with the evidence and the declarations. -/
theorem satisfiedSet_mono {mode : Mode} {e e' : Evidence} {declared declared' : AssumptionSet}
    (hholds : e.holds ⊆ e'.holds) (hviolated : e'.violated ⊆ e.violated)
    (hdeclared : declared ⊆ declared') :
    satisfiedSet mode e declared ⊆ satisfiedSet mode e' declared' := by
  intro a ha
  cases mode with
  | strict =>
      simp only [satisfiedSet, AssumptionSet.mem_union, AssumptionSet.mem_sdiff] at ha ⊢
      rcases ha with ha | ⟨ha, hfree⟩
      · exact .inl (hholds a ha)
      · exact .inr ⟨hdeclared a ha, fun hcontradicted => hfree (hviolated a hcontradicted)⟩
  | relaxed =>
      simp only [satisfiedSet, AssumptionSet.mem_union] at ha ⊢
      exact ha.imp (hholds a) (hdeclared a)

section Choice

variable {p : PairProperties α} {e e' : Evidence} {declared declared' : AssumptionSet}
  {settings settings' : Settings α} {s s' : Selection}

theorem select_of_mostSpecific? {m : TestMethod}
    (h : mostSpecific? (eligibleTests p.shape (satisfiedSet settings.mode e declared)) = some m) :
    select p e declared settings = .ok (.ofMethod settings.mode e declared m false) := by
  rw [select, h]

/-- If more assumptions are taken to hold, a regular choice stays regular and becomes no less
demanding. -/
theorem exists_regular_of_subset
    (hsub : satisfiedSet settings.mode e declared ⊆ satisfiedSet settings'.mode e' declared')
    (hs : select p e declared settings = .ok s) (hregular : s.fallback = false) :
    ∃ s', select p e' declared' settings' = .ok s' ∧ s'.fallback = false ∧
      s'.method ∈ TestMethod.catalog ∧ s.method.specificity ≤ s'.method.specificity := by
  rcases select_eq_ok_iff.1 hs with ⟨m, hm, rfl⟩ | ⟨-, -, rfl⟩
  · have hm' := hm.eligible.mono hsub
    obtain ⟨k, hk⟩ := hm'.exists_optimal
    exact ⟨_, select_eq_ok_iff.2 (.inl ⟨k, hk, rfl⟩), rfl, hk.eligible.mem_catalog,
      hk.specificity_le m hm'⟩
  · cases hregular

/-- The fallback relies on nothing, so it is never the more demanding choice. -/
theorem specificity_le_of_subset
    (hsub : satisfiedSet settings.mode e declared ⊆ satisfiedSet settings'.mode e' declared')
    (hs : select p e declared settings = .ok s) (hs' : select p e' declared' settings' = .ok s') :
    s.method.specificity ≤ s'.method.specificity := by
  cases hregular : s.fallback with
  | false =>
      obtain ⟨k, hk, -, -, hle⟩ := exists_regular_of_subset hsub hs hregular
      rw [hs'] at hk
      exact Except.ok.inj hk ▸ hle
  | true =>
      rcases select_eq_ok_iff.1 hs with ⟨m, -, rfl⟩ | ⟨-, -, rfl⟩
      · cases hregular
      · exact Nat.zero_le _

end Choice

/-- **A lower threshold and more declarations never lead to a less demanding test**, whatever is
done about contradicted declarations.  A lower threshold supports more assumptions and contradicts
fewer; where the higher threshold and the fewer declarations leave a regular test, so do the lower
threshold and the more declarations, and in no case does the choice rely on fewer assumptions. -/
theorem select_antitone_threshold [Numeric α] [OrderFaithful α] (p : PairProperties α)
    (settings : Settings α) {a₁ a₂ : α} {declared₁ declared₂ : AssumptionSet} (halpha : a₁ ≤ a₂)
    (hdeclared : declared₂ ⊆ declared₁) :
    let settings₁ := settings.withAlpha a₁
    let settings₂ := settings.withAlpha a₂
    let choice₁ := select p (evidence p settings₁) declared₁ settings₁
    let choice₂ := select p (evidence p settings₂) declared₂ settings₂
    (evidence p settings₂).holds ⊆ (evidence p settings₁).holds ∧
    (evidence p settings₁).violated ⊆ (evidence p settings₂).violated ∧
    (∀ s₂, choice₂ = .ok s₂ → s₂.fallback = false →
      ∃ s₁, choice₁ = .ok s₁ ∧ s₁.fallback = false ∧ s₁.method ∈ TestMethod.catalog ∧
        s₂.method.specificity ≤ s₁.method.specificity) ∧
    (∀ s₁ s₂, choice₁ = .ok s₁ → choice₂ = .ok s₂ →
      s₂.method.specificity ≤ s₁.method.specificity) := by
  intro settings₁ settings₂ choice₁ choice₂
  have hholds : (evidence p settings₂).holds ⊆ (evidence p settings₁).holds := by
    intro a ha
    rw [mem_holds_evidence] at ha ⊢
    exact (verdictOn_noWorse halpha a).holds ha
  have hviolated : (evidence p settings₁).violated ⊆ (evidence p settings₂).violated := by
    intro a ha
    rw [mem_violated_evidence] at ha ⊢
    exact (verdictOn_noWorse halpha a).violated ha
  have hsub : satisfiedSet settings₂.mode (evidence p settings₂) declared₂ ⊆
      satisfiedSet settings₁.mode (evidence p settings₁) declared₁ :=
    satisfiedSet_mono hholds hviolated hdeclared
  exact ⟨hholds, hviolated, fun s₂ => exists_regular_of_subset hsub,
    fun s₁ s₂ hs₁ hs₂ => specificity_le_of_subset hsub hs₂ hs₁⟩

/-! ### Two groups that come close to a threshold -/

/-- Two groups of which one barely passes the check of normality.  Their variances were not
compared. -/
def borderlineGroups : PairProperties Float where
  explanatory := "condition"
  response := "score"
  shape := .groupComparison 2 false
  samples := .groups ["a", "b"] [[1, 2, 4], [3, 5, 6]]
  paired := some false
  dvScale := .ratio
  allRankable := false
  sampleSizes := ⟨[("a", 3), ("b", 3)]⟩
  normality := ⟨[("a", some ⟨1, 2 / 100, none⟩), ("b", some ⟨1, 50 / 100, none⟩)]⟩
  equalVariance := none
  outliers := some 0
  differenceNormality := none
  differenceSymmetry := none
  differenceOutliers := none
  minExpectedCount := none
  variableProperties := ⟨[]⟩

/-- The evidence about these groups at a threshold. -/
def borderlineEvidence (alpha : Float) : Evidence :=
  evidence borderlineGroups (Settings.standard.withAlpha alpha)

/-- At a threshold of one percent and with equal variances declared, the most demanding test is
chosen; at five percent and without the declaration, only a rank test is left. -/
theorem select_borderlineGroups :
    (1 / 100 : Float) ≤ 5 / 100 ∧ (∅ : AssumptionSet) ⊆ {.equalVariances} ∧
      (borderlineEvidence (5 / 100)).holds ⊆ (borderlineEvidence (1 / 100)).holds ∧
      (borderlineEvidence (1 / 100)).violated ⊆ (borderlineEvidence (5 / 100)).violated ∧
      ∃ s₁ s₂,
        select borderlineGroups (borderlineEvidence (1 / 100)) {.equalVariances}
          (Settings.standard.withAlpha (1 / 100)) = .ok s₁ ∧
        select borderlineGroups (borderlineEvidence (5 / 100)) ∅
          (Settings.standard.withAlpha (5 / 100)) = .ok s₂ ∧
        s₁.method = .studentsT ∧ s₂.method = .mannWhitneyU ∧
        s₂.method.specificity ≤ s₁.method.specificity := by
  have halpha : (1 / 100 : Float) ≤ 5 / 100 := by decide +kernel
  have hdeclared : (∅ : AssumptionSet) ⊆ {.equalVariances} := fun a ha =>
    absurd ha (AssumptionSet.not_mem_empty a)
  have hlow : mostSpecific? (eligibleTests borderlineGroups.shape (satisfiedSet .strict
      (borderlineEvidence (1 / 100)) {.equalVariances})) = some .studentsT := by decide +kernel
  have hhigh : mostSpecific? (eligibleTests borderlineGroups.shape (satisfiedSet .strict
      (borderlineEvidence (5 / 100)) ∅)) = some .mannWhitneyU := by decide +kernel
  have hselect₁ : select borderlineGroups (borderlineEvidence (1 / 100)) {.equalVariances}
      (Settings.standard.withAlpha (1 / 100)) = .ok _ := select_of_mostSpecific? hlow
  have hselect₂ : select borderlineGroups (borderlineEvidence (5 / 100)) ∅
      (Settings.standard.withAlpha (5 / 100)) = .ok _ := select_of_mostSpecific? hhigh
  obtain ⟨hholds, hviolated, -, hle⟩ :=
    select_antitone_threshold borderlineGroups .standard halpha hdeclared
  exact ⟨halpha, hdeclared, hholds, hviolated, _, _, hselect₁, hselect₂, rfl, rfl,
    hle _ _ hselect₁ hselect₂⟩

end StudyAnalysis
