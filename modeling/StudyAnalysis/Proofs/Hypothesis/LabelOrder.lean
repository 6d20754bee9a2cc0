/-
**The order of nominal labels does not matter.**

In exact arithmetic, the order in which the labels of nominal variables are declared decides nothing
but how results are presented.  The samples of every comparison come in another order, and so do the
participants of related groups; the evidence, the chosen test, its warnings and its p-value stay as
they are.  The tails of the reference distributions are arbitrary functions here.

Main definitions:

* `StudyAnalysis.Exact.Unaffected` — what a comparison with its result keeps.

Main results:

* `StudyAnalysis.Exact.exists_tabulate_of_alignPaired` — related groups as a table of participants;
* `StudyAnalysis.Exact.exists_pairProperties_relabel`, `StudyAnalysis.Exact.exists_combine_relabel` —
  **comparisons differ in the order of their samples only**;
* `StudyAnalysis.Exact.evaluate_relabel_unaffected` — **the conclusions about a hypothesis do not
  depend on the order of nominal labels**.
-/

import StudyAnalysis.Proofs.Statistics.RankSums
import StudyAnalysis.Proofs.Hypothesis.PairedAlignment
import StudyAnalysis.Proofs.Hypothesis.Relabelling
import StudyAnalysis.Proofs.Hypothesis.ReorderedComparisons
import StudyAnalysis.Proofs.Selection.Monotonicity

set_option autoImplicit false
set_option relaxedAutoImplicit false

namespace StudyAnalysis.Exact

open Numeric Fallible

/-! ### Related groups -/

section Related

variable [NumberText ℝ] {d : Dataset ℝ} {name : String} {labels labels' : List String}
  {samples : List (List ℝ)}

/-- By a key, each participant who is in all groups has one place. -/
theorem alignPaired_eq_tabulate {key : String} (hkey : d.key = some key)
    (cells : String → RowValues ℝ) (labels : List String) :
    alignPaired d name (labels.map cells) =
      .ok (tabulate (fun label id => (NameMap.find id (identified d (cells label))).getD 0) labels
        (participants (labels.map fun label => identified d (cells label)))) := by
  have hgroups : (labels.map cells).map (identified d) =
      labels.map fun label => identified d (cells label) := List.map_map
  rw [alignPaired, hkey]
  dsimp only
  rw [hgroups, List.map_map]
  refine congrArg Except.ok (List.map_congr_left fun label hlabel => ?_)
  conv_rhs => rw [← List.filterMap_eq_map]
  refine List.filterMap_congr fun id hid => ?_
  obtain ⟨x, hx⟩ := Option.isSome_iff_exists.1 (isSome_find_of_mem_participants hid
    (List.mem_map_of_mem hlabel))
  show NameMap.find id _ = some ((NameMap.find id _).getD 0)
  rw [hx]
  rfl

/-- **Related groups are a table of participants.**  Another order of the labels gives the same table
with its rows, and perhaps its columns, in another order. -/
theorem exists_tabulate_of_alignPaired {cells : String → RowValues ℝ}
    (hlabels : labels.Perm labels')
    (hsamples : alignPaired d name (labels.map cells) = .ok samples) :
    ∃ (β : Type) (value : String → β → ℝ) (ids ids' : List β), ids.Perm ids' ∧
      samples = tabulate value labels ids ∧
      alignPaired d name (labels'.map cells) = .ok (tabulate value labels' ids') := by
  cases hkey : d.key with
  | none =>
      obtain ⟨⟨n, hn⟩, rfl⟩ := (alignPaired_eq_ok_iff hkey).1 hsamples
      have hn' : ∀ g ∈ labels'.map cells, g.length = n := fun g hg =>
        hn g ((hlabels.map cells).mem_iff.2 hg)
      have htable : ∀ {names : List String}, (∀ g ∈ names.map cells, g.length = n) →
          (names.map cells).map (fun g => g.map (·.2)) =
            tabulate (fun label i => ((cells label).map (·.2)).getD i 0) names (List.range n) := by
        intro names hnames
        rw [List.map_map]
        refine List.map_congr_left fun label hlabel => (map_getD_range _ ?_).symm
        rw [Function.comp_apply, List.length_map]
        exact hnames _ (List.mem_map_of_mem hlabel)
      refine ⟨ℕ, _, _, _, List.Perm.refl _, htable hn, ?_⟩
      exact (alignPaired_eq_ok_iff hkey).2 ⟨⟨n, hn'⟩, (htable hn').symm⟩
  | some key =>
      rw [alignPaired_eq_tabulate hkey] at hsamples ⊢
      exact ⟨String, _, _, _, participants_perm (hlabels.map _), (Except.ok.inj hsamples).symm, rfl⟩

end Related

/-! ### Comparisons -/

section Comparisons

variable [Tails ℝ] {σ : Variable → Variable} (h : Variable.ReordersLabels σ)
  {d : Dataset ℝ} {factor outcome e r : AnnotatedVariable ℝ} {base p : PairProperties ℝ}

include h

/-- **Groups differ in the order of their samples only.** -/
theorem exists_groupProperties_relabel [NumberText ℝ] {paired : Bool}
    (hscale : outcome.var.scale.isRankable = true)
    (hp : groupProperties d factor outcome paired base = .ok p) :
    ∃ p', groupProperties (d.relabel σ) (factor.relabel σ) (outcome.relabel σ) paired base = .ok p' ∧
      Alike p p' := by
  obtain ⟨groups, hgroups, hp⟩ := bind_eq_ok_iff.1 hp
  obtain ⟨samples, hsamples, hp⟩ := bind_eq_ok_iff.1 hp
  obtain rfl := Except.ok.inj hp
  obtain ⟨labels, labels', cells, hlabels, rfl, hgroups'⟩ := exists_groupsOf_relabel h hgroups
  have houtcome : σ outcome.var = outcome.var := by
    refine h.eq_self _ fun hnominal => ?_
    rw [hnominal] at hscale
    cases hscale
  rw [map_snd_labelled] at hsamples
  rw [groupProperties, hgroups', ok_bind, map_snd_labelled, map_fst_labelled, map_fst_labelled]
  show ∃ p', (groupSamples (d.relabel σ) (σ factor.var).name paired (labels'.map cells) >>= _) =
    .ok p' ∧ _
  rw [h.name_eq]
  cases paired with
  | false =>
      obtain rfl := Except.ok.inj hsamples
      refine ⟨_, rfl, ?_⟩
      show Alike _ (sampledProperties (σ outcome.var) _ _ _ _)
      rw [houtcome, List.map_map, List.map_map]
      exact alike_groups outcome.var base hlabels
  | true =>
      obtain ⟨β, value, ids, ids', hids, rfl, hsamples'⟩ :=
        exists_tabulate_of_alignPaired hlabels hsamples
      rw [groupSamples, if_pos rfl, alignPaired_relabel, hsamples', ok_bind]
      refine ⟨_, rfl, ?_⟩
      show Alike _ (sampledProperties (σ outcome.var) _ _ _ _)
      rw [houtcome]
      exact alike_paired outcome.var base hlabels hids value

omit [Tails ℝ] in
/-- **Cross-tabulations differ in the order of rows and columns only.** -/
theorem alike_contingencyProperties_relabel :
    Alike (contingencyProperties e r base)
      (contingencyProperties (e.relabel σ) (r.relabel σ) base) := by
  have hmem : ∀ p ∈ alignedLabels e r, p.1 ∈ e.var.labels ∧ p.2 ∈ r.var.labels :=
    fun p hp => mem_labels_of_mem_alignedLabels hp
  have hrows := occurringNames_perm h
    (List.forall_mem_map.2 fun p hp => (hmem p hp).1 :
      ∀ label ∈ (alignedLabels e r).map (·.1), label ∈ e.var.labels)
  have hcols := occurringNames_perm h
    (List.forall_mem_map.2 fun p hp => (hmem p hp).2 :
      ∀ label ∈ (alignedLabels e r).map (·.2), label ∈ r.var.labels)
  have hleast := least?_expectedCounts_eq
    (fun a b => ((alignedLabels e r).count (a, b) : ℝ)) hrows hcols
  rw [contingencyProperties_eq, contingencyProperties_eq, alignedLabels_relabel h]
  refine ⟨.contingency hrows hcols fun a b => (alignedLabels e r).count (a, b), ?_, rfl⟩
  simp only [AnnotatedVariable.relabel, h.name_eq, ← hrows.length_eq, ← hcols.length_eq]
  congr 1
  exact hleast.symm

/-- **Comparisons differ in the order of their samples only.** -/
theorem exists_pairProperties_relabel [NumberText ℝ] {design : Design ℝ} {kind : StudyKind}
    {hasRoles : Bool} (hp : pairProperties d design kind hasRoles e r = .ok p) :
    ∃ p', pairProperties (d.relabel σ) design kind hasRoles (e.relabel σ) (r.relabel σ) = .ok p' ∧
      Alike p p' := by
  have hlayout' : layoutOf kind (e.relabel σ) (r.relabel σ) = (layoutOf kind e r).map (·.relabel σ) :=
    layoutOf_map fun a => h.scale_eq a.var
  have hname : ∀ a : AnnotatedVariable ℝ, (a.relabel σ).var.name = a.var.name :=
    fun a => h.name_eq a.var
  have hscale : ∀ a : AnnotatedVariable ℝ, (a.relabel σ).var.scale = a.var.scale :=
    fun a => h.scale_eq a.var
  rw [pairProperties] at hp ⊢
  dsimp only at hp hlayout' ⊢
  rw [hlayout', baseProperties_relabel h]
  cases hlayout : layoutOf kind e r with
  | groups factor outcome =>
      rw [hlayout] at hp
      dsimp only [Layout.map]
      rw [hname, hscale]
      exact exists_groupProperties_relabel h (scales_of_groups hlayout).2 hp
  | correlation =>
      rw [hlayout] at hp
      obtain rfl := Except.ok.inj hp
      refine ⟨_, rfl, ?_⟩
      rw [correlationProperties_relabel h, hname]
      exact ⟨.bivariate _ _, rfl, rfl⟩
  | contingency =>
      rw [hlayout] at hp
      obtain rfl := Except.ok.inj hp
      refine ⟨_, rfl, ?_⟩
      rw [hname]
      exact alike_contingencyProperties_relabel h

variable {bindings : List (Binding ℝ)} {c : Combination ℝ}

/-- **The comparisons of a hypothesis are the same**, up to the order of their samples. -/
theorem exists_combine_relabel [NumberText ℝ] {design : Design ℝ}
    (hc : combine d bindings design = .ok c) :
    ∃ c', combine (d.relabel σ) (bindings.map (·.relabel σ)) design = .ok c' ∧
      List.Forall₂ Alike c.pairs c'.pairs := by
  obtain ⟨hasRoles, compared, hkind, hvars, hcompared, hpairs⟩ := combine_eq_ok_iff.1 hc
  have hvars' : (bindings.map (·.relabel σ)).mapM (annotate design c.kind) =
      .ok (c.vars.map (·.relabel σ)) := by
    rw [List.mapM_map]
    refine (mapM_eq_map_mapM fun b _ => annotate_relabel h b).trans ?_
    rw [hvars]
    rfl
  have hcompared' : comparisons (c.vars.map (·.relabel σ)) =
      .ok (hasRoles, compared.map (Prod.map (·.relabel σ) (·.relabel σ))) := by
    rw [comparisons_map (g := (·.relabel σ)) (fun a => rfl) fun a => h.name_eq a.var, hcompared]
    rfl
  have hpairs' : ∃ pairs', (compared.map (Prod.map (·.relabel σ) (·.relabel σ))).mapM
        (fun q => pairProperties (d.relabel σ) design c.kind hasRoles q.1 q.2) = .ok pairs' ∧
      List.Forall₂ Alike c.pairs pairs' := by
    refine exists_mapM_of_forall₂ (R := fun q q' => q' = Prod.map (·.relabel σ) (·.relabel σ) q)
      ?_ ?_ hpairs
    · rintro q _ p rfl hp
      exact exists_pairProperties_relabel h hp
    · exact List.forall₂_map_right_iff.2 (List.forall₂_same.2 fun q _ => rfl)
  obtain ⟨pairs', hpairs', halike⟩ := hpairs'
  exact ⟨⟨c.kind, c.vars.map (·.relabel σ), pairs'⟩,
    combine_eq_ok_iff.2 ⟨hasRoles, _, hkind, hvars', hcompared', hpairs'⟩, halike⟩

end Comparisons

/-! ### Hypotheses -/

/-- What a comparison with its result keeps when the order of labels changes: everything but the
samples, the statistic, the effect sizes and a p-value that was drawn at random. -/
structure Unaffected (t t' : PairProperties ℝ × TestResult ℝ) : Prop where
  names_eq : t'.2.names = t.2.names
  evidence_eq : ∀ settings, evidence t'.1 settings = evidence t.1 settings
  method_eq : t'.2.method = t.2.method
  warnings_eq : t'.2.warnings = t.2.warnings
  properties_eq : t'.2.properties = t.2.properties
  df_eq : t'.2.df = t.2.df
  oneSided_eq : t'.2.oneSided = t.2.oneSided
  pValue_eq : t.2.method ≠ .bootstrap → t'.2.pValue = t.2.pValue

theorem unaffected_of_alike {p p' : PairProperties ℝ} {r r' : TestResult ℝ} (hp : Alike p p')
    (hr : SameConclusion r r') : Unaffected (p, r) (p', r') := by
  refine ⟨?_, hp.evidence_eq, ?_, ?_, ?_, ?_, ?_, hr.pValue⟩ <;>
  · dsimp only
    rw [hr.eq]

/-- Restriction to common rows commutes with the change of labels. -/
theorem map_restrict_relabel {α : Type} (σ : Variable → Variable) (bindings : List (Binding α)) :
    (bindings.map (·.relabel σ)).map (·.restrict (Binding.commonRows (bindings.map (·.relabel σ)))) =
      (bindings.map (·.restrict (Binding.commonRows bindings))).map (·.relabel σ) := by
  rw [Binding.commonRows_relabel, List.map_map, List.map_map]
  rfl

section Hypotheses

variable [Tails ℝ]

/-- Reordered comparisons are tested one by one, with results that differ as little. -/
theorem exists_tested_of_alike {settings : Settings ℝ} {declared : Declared}
    {predictions : List Prediction} {pairs pairs' : List (PairProperties ℝ)}
    {results : List (TestResult ℝ)} (hpairs : List.Forall₂ Alike pairs pairs')
    (hresults : pairs.mapM (testComparison settings declared predictions) = .ok results) :
    ∃ tested tested' : List (PairProperties ℝ × TestResult ℝ),
      tested.map (·.1) = pairs ∧ tested.map (·.2) = results ∧ tested'.map (·.1) = pairs' ∧
      pairs'.mapM (testComparison settings declared predictions) = .ok (tested'.map (·.2)) ∧
      List.Forall₂ Unaffected tested tested' := by
  induction hpairs generalizing results with
  | nil =>
      cases hresults
      exact ⟨[], [], rfl, rfl, rfl, rfl, .nil⟩
  | @cons p p' _ _ hp _ ih =>
      obtain ⟨r, rest, hr, hrest, rfl⟩ :=
        List.forall₂_cons_left_iff.1 (mapM_eq_ok_iff.1 hresults)
      obtain ⟨r', hr', hconclusion⟩ := hp.exists_testComparison hr
      obtain ⟨tested, tested', rfl, rfl, rfl, hrest', hunaffected⟩ := ih (mapM_eq_ok_iff.2 hrest)
      refine ⟨(p, r) :: tested, (p', r') :: tested', rfl, rfl, rfl, ?_,
        .cons (unaffected_of_alike hp hconclusion) hunaffected⟩
      exact mapM_eq_ok_iff.2 (.cons hr' (mapM_eq_ok_iff.1 hrest'))

variable [NumberText ℝ] {σ : Variable → Variable} {d : Dataset ℝ} {ctx : Context ℝ}
  {kind : HypothesisKind} {operands : List (Expression ℝ)} {predictions : List Prediction}
  {x : Evaluated ℝ}

/-- **The order of nominal labels does not matter.**  In exact arithmetic, if a hypothesis evaluates on
a dataset, it evaluates on the dataset whose nominal labels are listed in another order, in the same
number of comparisons.  Comparison by comparison, the evidence is the same, and so are the chosen test,
its warnings and, unless the test is the fallback that draws at random, the p-value, be it one-sided
or two-sided. -/
theorem evaluate_relabel_unaffected (h : Variable.ReordersLabels σ)
    (hx : evaluate d ctx (.hypothesis kind operands predictions) = .ok x) :
    ∃ tested tested' : List (PairProperties ℝ × TestResult ℝ),
      Compares d ctx operands (tested.map (·.1)) ∧ x = .tested (tested.map (·.2)) ∧
      Compares (d.relabel σ) ctx operands (tested'.map (·.1)) ∧
      evaluate (d.relabel σ) ctx (.hypothesis kind operands predictions) =
        .ok (.tested (tested'.map (·.2))) ∧
      List.Forall₂ Unaffected tested tested' := by
  obtain ⟨design, bindings, results, hdesign, hvalid, hlength, hbindings, hliteral, hresults,
    rfl⟩ := evaluate_hypothesis_eq_ok_iff.1 hx
  obtain ⟨hchecked, c, hc, hresults⟩ := testBindings_eq_ok_iff.1 hresults
  have hbindings' := mapM_evaluateBinding_relabel h hbindings
  obtain ⟨c', hc', hpairs⟩ := exists_combine_relabel h hc
  obtain ⟨tested, tested', hpairs₁, rfl, hpairs₂, hresults', hunaffected⟩ :=
    exists_tested_of_alike hpairs hresults
  rw [← map_restrict_relabel] at hc'
  refine ⟨tested, tested', ⟨design, bindings, c, hdesign, hbindings, hc, hpairs₁.symm⟩, rfl,
    ⟨design, _, c', hdesign, hbindings', hc', hpairs₂.symm⟩, ?_, hunaffected⟩
  refine evaluate_hypothesis_eq_ok_iff.2 ⟨design, _, _, hdesign, hvalid, hlength, hbindings', ?_,
    testBindings_eq_ok_iff.2 ⟨?_, c', hc', hresults'⟩, rfl⟩
  · intro b hb
    obtain ⟨b', hb', rfl⟩ := List.mem_map.1 hb
    rw [Binding.isLiteral_relabel]
    exact hliteral b' hb'
  · rw [map_restrict_relabel]
    exact checkPredictions_relabel h hchecked

end Hypotheses

/-! ### Grades in two arms of a trial -/

/-- Real numbers written by their whole parts. -/
@[reducible] noncomputable def wholeTexts : NumberText ℝ where
  shortest x := toString ⌊x⌋
  fixed _ x := toString ⌊x⌋
  json x := toString ⌊x⌋

/-- Four participants of a trial of two arms. -/
noncomputable def trialGrades : Dataset ℝ where
  columns := .ofList [
    ("arm", ⟨⟨"arm", .nominal, some ["placebo", "drug"]⟩,
      [.text "placebo", .text "drug", .text "placebo", .text "drug"]⟩),
    ("grade", ⟨⟨"grade", .ordinal, some ["low", "fair", "high"]⟩,
      [.text "low", .text "fair", .text "fair", .text "high"]⟩)]
  rowCount := 4
  key := none

/-- The design of the trial. -/
def trialDesign : Design ℝ :=
  .experiment ["arm"] ["grade"]

/-- The trial with the standard settings and without declarations. -/
noncomputable def trialContext : Context ℝ :=
  ⟨.standard, some trialDesign, ⟨∅, ∅⟩⟩

/-- The prediction about the trial. -/
def drugAhead : Prediction :=
  .groupOrder "drug" "placebo"

/-- Two independent groups whose values are ordered, but not known to be normal, are compared by
ranks. -/
theorem mostSpecific?_of_ranks {s : AssumptionSet} (hindependent : .independentObservations ∈ s)
    (hrankable : .dvContinuousOrOrdinal ∈ s) (hnormal : ¬ .normalDistribution ∈ s) :
    mostSpecific? (eligibleTests (.groupComparison 2 false) s) = some .mannWhitneyU := by
  have hstudent : ¬ TestMethod.studentsT.required ⊆ s := fun h => hnormal (h _ rfl)
  have hwelch : ¬ TestMethod.welchT.required ⊆ s := fun h => hnormal (h _ rfl)
  have hranks : TestMethod.mannWhitneyU.required ⊆ s := by
    intro a ha
    rcases List.mem_pair.1 ((AssumptionSet.mem_ofList _ a).1 ha) with rfl | rfl
    · exact hindependent
    · exact hrankable
  have heligible : eligibleTests (.groupComparison 2 false) s = [.mannWhitneyU] := by
    show ([.studentsT, .welchT, .mannWhitneyU] : List TestMethod).filter
      (fun m => decide (m.required ⊆ s)) = _
    rw [List.filter_cons_of_neg (by simpa using hstudent),
      List.filter_cons_of_neg (by simpa using hwelch),
      List.filter_cons_of_pos (by simpa using hranks), List.filter_nil]
  rw [heligible]
  rfl

/-- What counts about the comparison of the two arms. -/
structure ComparesArms (p : PairProperties ℝ) : Prop where
  samples_eq : p.samples = .groups ["placebo", "drug"] [[ofNat 1, ofNat 2], [ofNat 2, ofNat 3]]
  shape_eq : p.shape = .groupComparison 2 false
  paired_eq : p.paired = some false
  dvScale_eq : p.dvScale = .ordinal
  normality_eq : p.normality = .ofList [("placebo", none), ("drug", none)]

namespace ComparesArms

variable {p : PairProperties ℝ} (h : ComparesArms p)

include h

theorem select_eq : select p (evidence p .standard) ∅ .standard =
    .ok (.ofMethod .strict (evidence p .standard) ∅ .mannWhitneyU false) := by
  have hmem : ∀ a, a ∈ satisfiedSet .strict (evidence p .standard) ∅ ↔
      verdictOn p .standard a = some true := by
    intro a
    rw [satisfiedSet, AssumptionSet.mem_union, mem_holds_evidence, AssumptionSet.mem_sdiff]
    simp
  have hnormality : p.normality.values = [none, none] := by
    rw [h.normality_eq]
    show (NameMap.insertInto "drug" none [("placebo", none)]).map (·.2) = _
    rw [NameMap.insertInto, if_neg (by decide), if_pos (by decide)]
    rfl
  refine select_of_mostSpecific? ?_
  rw [h.shape_eq]
  refine mostSpecific?_of_ranks ((hmem _).2 ?_) ((hmem _).2 ?_) ((hmem _).not.2 ?_)
  · rw [verdictOn, h.paired_eq]
    rfl
  · rw [verdictOn, h.dvScale_eq]
    rfl
  · rw [verdictOn, normalSamples, h.shape_eq, hnormality]
    intro hverdict
    cases hverdict

theorem exists_execute [Tails ℝ] : ∃ x, execute .mannWhitneyU p.samples .standard = .ok x := by
  let placebo : List ℝ := [ofNat 1, ofNat 2]
  let drug : List ℝ := [ofNat 2, ofNat 3]
  have hspread : 0 < uVariance placebo drug := by
    refine (uVariance_pos_iff (List.cons_ne_nil _ _) (List.cons_ne_nil _ _)).2
      ⟨ofNat 1, List.mem_cons_self, ofNat 2, List.mem_cons_of_mem _ List.mem_cons_self, ?_⟩
    norm_num
  obtain ⟨out, hout⟩ : ∃ out, mannWhitneyU placebo drug = .ok out := by
    rw [mannWhitneyU_eq (le_refl 2) (le_refl 2), if_neg hspread.not_ge]
    exact ⟨_, rfl⟩
  refine ⟨.ofEffect out "rank_biserial" (rankBiserial out.statistic 2 2), ?_⟩
  rw [h.samples_eq, execute, runTest]
  simp only [twoSamples, ok_bind]
  rw [hout]
  rfl

theorem confirmed?_eq : confirmed? p drugAhead = some true := by
  have hmeans : mean [(ofNat 1 : ℝ), ofNat 2] < mean [(ofNat 2 : ℝ), ofNat 3] := by
    simp only [mean_eq, ofNat_eq, List.sum_cons, List.sum_nil, List.length_cons, List.length_nil]
    norm_num
  have hobserved : confirmed? p drugAhead =
      some (decide (mean [(ofNat 1 : ℝ), ofNat 2] < mean [(ofNat 2 : ℝ), ofNat 3])) := by
    simp only [drugAhead, confirmed?, h.shape_eq, PairProperties.observedOrder, h.samples_eq]
    rfl
  rw [hobserved, decide_eq_true hmeans]

end ComparesArms

section Trial

variable [Tails ℝ] [NumberText ℝ]

/-- The trial has one comparison. -/
theorem exists_comparesArms : ∃ bindings c p,
    [Expression.column "arm", .column "grade"].mapM (evaluateBinding trialGrades trialContext) =
        .ok bindings ∧
      (∀ b ∈ bindings, b.isLiteral = false) ∧
      checkPredictions (bindings.map (·.restrict (Binding.commonRows bindings))) [drugAhead] =
        .ok () ∧
      combine trialGrades (bindings.map (·.restrict (Binding.commonRows bindings))) trialDesign =
        .ok c ∧
      c.pairs = [p] ∧ ComparesArms p := by
  refine ⟨_, _, _, rfl, ?_, rfl, rfl, rfl, rfl, rfl, rfl, rfl, rfl⟩
  rintro b (_ | ⟨_, _ | ⟨_, ⟨⟩⟩⟩) <;> rfl

/-- The arms are compared by ranks, one-sided. -/
theorem evaluate_trialGrades : ∃ r,
    evaluate trialGrades trialContext
        (.hypothesis .compare [.column "arm", .column "grade"] [drugAhead]) = .ok (.tested [r]) ∧
      r.method = .mannWhitneyU ∧ r.oneSided = true := by
  obtain ⟨bindings, c, p, hbindings, hliteral, hchecked, hc, hpairs, hp⟩ := exists_comparesArms
  obtain ⟨x, hx⟩ := hp.exists_execute
  let s := Selection.ofMethod .strict (evidence p .standard) ∅ .mannWhitneyU false
  have hone : withPredictions p [drugAhead] (.ofExecution s x p .standard) =
      TestResult.makeOneSided { TestResult.ofExecution s x p .standard with
        predictions := [drugAhead] } true := by
    simp only [withPredictions, hp.confirmed?_eq]
  refine ⟨withPredictions p [drugAhead] (.ofExecution s x p .standard), ?_, ?_, ?_⟩
  · refine evaluate_hypothesis_eq_ok_iff.2 ⟨trialDesign, bindings, _, rfl, rfl, le_refl 2, hbindings,
      hliteral, testBindings_eq_ok_iff.2 ⟨hchecked, c, hc, ?_⟩, rfl⟩
    rw [hpairs]
    exact mapM_eq_ok_iff.2
      (.cons (testComparison_eq_ok_iff.2 ⟨s, x, hp.select_eq, hx, rfl⟩) .nil)
  · rw [hone]
    rfl
  · rw [hone]
    rfl

end Trial

/-- Whether the placebo or the drug is listed first makes no difference to the trial. -/
theorem evaluate_trialGrades_reversed :
    let _tails := densityTails
    let _texts := wholeTexts
    let reversed := Variable.reorder "arm" List.reverse
    Variable.ReordersLabels reversed ∧
      ∃ r r', evaluate trialGrades trialContext
          (.hypothesis .compare [.column "arm", .column "grade"] [drugAhead]) = .ok (.tested [r]) ∧
        evaluate (trialGrades.relabel reversed) trialContext
          (.hypothesis .compare [.column "arm", .column "grade"] [drugAhead]) = .ok (.tested [r']) ∧
        r.method = .mannWhitneyU ∧ r'.method = .mannWhitneyU ∧
        r.oneSided = true ∧ r'.pValue = r.pValue := by
  intro tails texts reversed
  have hreversed : Variable.ReordersLabels reversed :=
    Variable.reordersLabels_reorder "arm" fun labels => (List.reverse_perm labels).symm
  obtain ⟨r, hr, hmethod, honeSided⟩ := evaluate_trialGrades
  obtain ⟨tested, tested', -, htested, -, hr', hunaffected⟩ :=
    evaluate_relabel_unaffected hreversed hr
  obtain ⟨t, rfl, rfl⟩ := List.map_eq_singleton_iff.1 (Evaluated.tested.inj htested).symm
  obtain ⟨t', rest, ht, hrest, rfl⟩ := List.forall₂_cons_left_iff.1 hunaffected
  obtain rfl := List.forall₂_nil_left_iff.1 hrest
  refine ⟨hreversed, t.2, t'.2, hr, hr', hmethod, ht.method_eq.trans hmethod, honeSided,
    ht.pValue_eq ?_⟩
  rw [hmethod]
  exact TestMethod.noConfusion

end StudyAnalysis.Exact
