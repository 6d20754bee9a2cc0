/-
**Comparisons of reordered samples.**

The properties of a comparison are named by label, so that another order of the labels changes none of
them, the samples themselves apart.  The differences of two related groups change their signs when the
groups are exchanged, and the statistic of the test of their symmetry does as well; its p-value, which
is all that the selection reads, does not.  The evidence, the chosen test, its warnings and whether a
prediction came true are then the same, and so is the p-value unless it was drawn at random.

Main definitions:

* `StudyAnalysis.Exact.Alike` — properties of two comparisons that differ in the order of samples;
* `StudyAnalysis.Exact.SameConclusion` — results that differ in statistic and effect sizes at most.

Main results:

* `StudyAnalysis.NameMap.ofList_map_eq_of_perm` — named values have no order;
* `StudyAnalysis.Exact.alike_groups`, `StudyAnalysis.Exact.alike_paired` — **reordered groups have
  the same properties**;
* `StudyAnalysis.Exact.Alike.evidence_eq`, `StudyAnalysis.Exact.Alike.select_eq` — what is read off
  them;
* `StudyAnalysis.Exact.Alike.exists_testComparison` — **reordered comparisons come to the same
  conclusion**.
-/

import StudyAnalysis.Proofs.Hypothesis.Direction
import StudyAnalysis.Proofs.Selection.Reordering

set_option autoImplicit false
set_option relaxedAutoImplicit false

namespace StudyAnalysis

/-! ### Named values -/

namespace NameMap

variable {β : Type}

theorem insertInto_comm_of_lt {a b : String} (h : a < b) (x y : β) (entries : List (String × β)) :
    insertInto a x (insertInto b y entries) = insertInto b y (insertInto a x entries) := by
  induction entries with
  | nil => grind [insertInto]
  | cons entry rest ih => grind [insertInto]

/-- Values under different names may be written in any order. -/
theorem insert_comm {a b : String} (h : a ≠ b) (x y : β) (m : NameMap β) :
    (m.insert b y).insert a x = (m.insert a x).insert b y := by
  rcases lt_or_gt_of_ne h with hlt | hgt
  · exact congrArg NameMap.mk (insertInto_comm_of_lt hlt x y m.entries)
  · exact congrArg NameMap.mk (insertInto_comm_of_lt hgt y x m.entries).symm

/-- **Named values have no order**: a map of the values that a function has at some names depends on
the set of names only. -/
theorem ofList_map_eq_of_perm (f : String → β) {names names' : List String}
    (h : names.Perm names') :
    ofList (names.map fun name => (name, f name)) = ofList (names'.map fun name => (name, f name)) := by
  rw [ofList, ofList, List.foldl_map, List.foldl_map]
  refine h.foldl_eq' (fun a _ b _ m => ?_) ∅
  by_cases hab : a = b
  · rw [hab]
  · exact insert_comm (Ne.symm hab) _ _ m

end NameMap

namespace Exact

open Numeric Fallible

/-! ### Properties of reordered samples -/

/-- Properties of two comparisons that differ in the order of their samples at most. -/
structure Alike (p p' : PairProperties ℝ) : Prop where
  reordered : Reordered p.samples p'.samples
  /-- Exchanging two related groups changes the sign of the statistic for the symmetry of their
  differences. -/
  eq : p' = { p with samples := p'.samples, differenceSymmetry := p'.differenceSymmetry }
  symmetry : p'.differenceSymmetry.map (·.pValue) = p.differenceSymmetry.map (·.pValue)

/-- The differences of two related groups. -/
noncomputable def groupDifferences (paired : Bool) (samples : List (List ℝ)) : Option (List ℝ) :=
  match samples with
  | [a, b] => if paired then (differences a b).toOption else none
  | _ => none

section Samples

variable {labels labels' : List String} {sample sample' : String → List ℝ}

theorem regrouped_of_samples (hlabels : labels.Perm labels')
    (hsample : ∀ label, (sample label).Perm (sample' label)) :
    Regrouped (labels.map sample) (labels'.map sample') := by
  refine ⟨labels'.map sample, hlabels.map sample, ?_⟩
  rw [List.forall₂_map_left_iff, List.forall₂_map_right_iff, List.forall₂_same]
  exact fun label _ => hsample label

/-- What does not depend on the order within a sample is the same under each label. -/
theorem ofList_zip_eq {γ : Type} (hlabels : labels.Perm labels')
    (hsample : ∀ label, (sample label).Perm (sample' label)) (f : List ℝ → γ)
    (hf : ∀ g k : List ℝ, g.Perm k → f g = f k) :
    NameMap.ofList (labels.zip ((labels.map sample).map f)) =
      NameMap.ofList (labels'.zip ((labels'.map sample').map f)) := by
  have hzip : ∀ (names : List String) (s : String → List ℝ),
      names.zip ((names.map s).map f) = names.map fun name => (name, f (s name)) := by
    intro names s
    rw [List.map_map, List.zip_eq_zipWith, List.zipWith_map_right, List.zipWith_self]
    rfl
  have hvalue : ∀ name, f (sample' name) = f (sample name) := fun name =>
    (hf _ _ (hsample name)).symm
  rw [hzip, hzip]
  simp only [hvalue]
  exact NameMap.ofList_map_eq_of_perm _ hlabels

variable [Tails ℝ] (outcome : Variable)

/-- The check of one sample for normality, if its values are numbers. -/
noncomputable def normalityCheck (sample : List ℝ) : Option (TestOutput ℝ) :=
  if outcome.scale.isContinuous then (normalTest sample).toOption else none

theorem normalityCheck_eq_of_perm (g k : List ℝ) (h : g.Perm k) :
    normalityCheck outcome g = normalityCheck outcome k := by
  rw [normalityCheck, normalityCheck, normalTest_eq_of_perm h]

theorem normalityCheck_eq_of_sameUpToSign {ds ds' : List ℝ} (h : SameUpToSign ds ds') :
    normalityCheck outcome ds' = normalityCheck outcome ds := by
  rcases h with h | h
  · exact normalityCheck_eq_of_perm outcome _ _ h
  · rw [normalityCheck_eq_of_perm outcome _ _ h, normalityCheck, normalityCheck,
      normalTest_map_neg]

theorem pValue_skewTest_eq_of_sameUpToSign {ds ds' : List ℝ} (h : SameUpToSign ds ds') :
    (skewTest ds').toOption.map (·.pValue) = (skewTest ds).toOption.map (·.pValue) := by
  have hmap : ∀ t : Except SampleError (TestOutput ℝ),
      t.toOption.map (·.pValue) = (t.map (·.pValue)).toOption := by
    rintro (_ | _) <;> rfl
  rcases h with h | h
  · rw [skewTest_eq_of_perm h]
  · rw [skewTest_eq_of_perm h, hmap, hmap, pValue_skewTest_map_neg]

omit [Tails ℝ] in
/-- What looks at differences up to their order and their common sign is the same in both orders. -/
theorem bind_eq_of_rel {γ : Type} {f : List ℝ → Option γ}
    (hf : ∀ ds ds', SameUpToSign ds ds' → f ds' = f ds) {ds ds' : Option (List ℝ)}
    (h : Option.Rel SameUpToSign ds ds') : ds'.bind f = ds.bind f := by
  cases h with
  | some h => exact hf _ _ h
  | none => rfl

variable (base : PairProperties ℝ)

theorem sampledProperties_eq (paired : Bool) (samples : List (List ℝ)) :
    sampledProperties outcome paired labels samples base =
      { base with
        shape := .groupComparison labels.length paired
        samples := if paired then .paired labels samples else .groups labels samples
        sampleSizes := .ofList (labels.zip (samples.map List.length))
        normality := .ofList (labels.zip (samples.map (normalityCheck outcome)))
        equalVariance :=
          if outcome.scale.isContinuous && 2 ≤ samples.length then (levene samples).toOption else none
        outliers :=
          if outcome.scale.isContinuous && 2 ≤ samples.length then
            some ((samples.map tukeyOutliers).foldl (· + ·) 0)
          else none
        differenceNormality := (groupDifferences paired samples).bind (normalityCheck outcome)
        differenceSymmetry := (groupDifferences paired samples).bind fun ds => (skewTest ds).toOption
        differenceOutliers := (groupDifferences paired samples).map tukeyOutliers } := by
  match samples with
  | [] | [_] | [_, _] | _ :: _ :: _ :: _ => rfl

/-- The properties of samples do not depend on the order of their labels and on the order within each
sample, if the differences of related groups do so up to a common sign. -/
theorem alike_sampledProperties (paired : Bool) (hlabels : labels.Perm labels')
    (hsample : ∀ label, (sample label).Perm (sample' label))
    (hdifferences : Option.Rel SameUpToSign (groupDifferences paired (labels.map sample))
      (groupDifferences paired (labels'.map sample')))
    (hreordered : Reordered
      (if paired then .paired labels (labels.map sample) else .groups labels (labels.map sample))
      (if paired then .paired labels' (labels'.map sample')
        else .groups labels' (labels'.map sample'))) :
    Alike (sampledProperties outcome paired labels (labels.map sample) base)
      (sampledProperties outcome paired labels' (labels'.map sample') base) := by
  have hregrouped := regrouped_of_samples hlabels hsample
  have hsizes := ofList_zip_eq hlabels hsample List.length fun _ _ h => h.length_eq
  have hnormality := ofList_zip_eq hlabels hsample (normalityCheck outcome)
    (normalityCheck_eq_of_perm outcome)
  have houtliers : ((labels.map sample).map tukeyOutliers).foldl (· + ·) 0 =
      ((labels'.map sample').map tukeyOutliers).foldl (· + ·) 0 := by
    have hperm := hregrouped.map_perm fun _ _ => tukeyOutliers_eq_of_perm
    rw [← List.sum_eq_foldl, ← List.sum_eq_foldl, hperm.sum_eq]
  have hdifferenceNormality :=
    bind_eq_of_rel (fun _ _ => normalityCheck_eq_of_sameUpToSign outcome) hdifferences
  have hdifferenceOutliers : (groupDifferences paired (labels'.map sample')).map tukeyOutliers =
      (groupDifferences paired (labels.map sample)).map tukeyOutliers := by
    rw [Option.map_eq_bind, Option.map_eq_bind]
    exact bind_eq_of_rel (fun _ _ h => congrArg some h.tukeyOutliers_eq) hdifferences
  have hsymmetry := bind_eq_of_rel (fun _ _ => pValue_skewTest_eq_of_sameUpToSign) hdifferences
  rw [sampledProperties_eq, sampledProperties_eq]
  refine ⟨hreordered, ?_, ?_⟩
  · rw [hdifferenceNormality, hdifferenceOutliers, ← hsizes, ← hnormality, ← houtliers,
      ← hregrouped.length_eq, ← levene_eq_of_regrouped hregrouped, ← hlabels.length_eq]
  · rw [Option.map_bind, Option.map_bind]
    exact hsymmetry

/-- **Independent groups in another order** have the same properties. -/
theorem alike_groups (hlabels : labels.Perm labels') :
    Alike (sampledProperties outcome false labels (labels.map sample) base)
      (sampledProperties outcome false labels' (labels'.map sample) base) := by
  have hnone : ∀ samples : List (List ℝ), groupDifferences false samples = none := by
    intro samples
    match samples with
    | [] | [_] | [_, _] | _ :: _ :: _ :: _ => rfl
  refine alike_sampledProperties outcome base false hlabels (fun label => List.Perm.refl _) ?_
    (.groups hlabels sample)
  rw [hnone, hnone]
  exact .none

/-- **Related groups and their participants in another order** have the same properties. -/
theorem alike_paired {β : Type} {ids ids' : List β} (hlabels : labels.Perm labels')
    (hids : ids.Perm ids') (value : String → β → ℝ) :
    Alike (sampledProperties outcome true labels (tabulate value labels ids) base)
      (sampledProperties outcome true labels' (tabulate value labels' ids') base) := by
  refine alike_sampledProperties outcome base true hlabels (fun label => hids.map (value label)) ?_
    (.paired hlabels hids value)
  have hpair : ∀ (a b : String) (ids : List β),
      groupDifferences true [ids.map (value a), ids.map (value b)] =
        some (ids.map fun id => value a id - value b id) := by
    intro a b ids
    rw [groupDifferences, if_pos rfl, differences_map]
    rfl
  by_cases hlength : labels.length = 2
  · obtain ⟨a, b, rfl, rfl | rfl⟩ := pair_of_perm hlabels hlength
    · rw [List.map_cons, List.map_cons, List.map_nil, List.map_cons, List.map_cons, List.map_nil,
        hpair, hpair]
      exact .some (sameUpToSign_of_perm hids (value a) (value b))
    · rw [List.map_cons, List.map_cons, List.map_nil, List.map_cons, List.map_cons, List.map_nil,
        hpair, hpair]
      exact .some (sameUpToSign_swap hids (value a) (value b))
  · have hnone : ∀ {samples : List (List ℝ)}, samples.length ≠ 2 →
        groupDifferences true samples = none := by
      intro samples hsamples
      match samples with
      | [] | [_] | _ :: _ :: _ :: _ => rfl
      | [_, _] => exact absurd rfl hsamples
    rw [hnone (by rwa [List.length_map]), hnone (by rwa [List.length_map, ← hlabels.length_eq])]
    exact .none

end Samples

/-! ### What is read off the properties -/

theorem sampleOf?_of_groups? {s : Samples ℝ} {labels : List String} {sample : String → List ℝ}
    (hs : s.groups? = some (labels, labels.map sample)) (label : String) :
    s.sampleOf? label = if label ∈ labels then some (sample label) else none := by
  rw [Samples.sampleOf?, hs]
  show (labels.idxOf? label).bind (fun i => (labels.map sample)[i]?) = _
  split
  · rename_i hmem
    obtain ⟨i, hi⟩ := Option.isSome_iff_exists.1 (List.isSome_idxOf?.2 hmem)
    obtain ⟨hlt, hat, -⟩ := List.idxOf?_eq_some_iff.1 hi
    rw [hi, Option.bind_some, List.getElem?_map, List.getElem?_eq_getElem hlt, hat]
    rfl
  · rename_i hmem
    rw [List.idxOf?_eq_none_iff.2 hmem, Option.bind_none]

/-- The sample of a label has the same values in both orders. -/
theorem Reordered.sampleOf? {s s' : Samples ℝ} (h : Reordered s s') (label : String) :
    Option.Rel List.Perm (s.sampleOf? label) (s'.sampleOf? label) := by
  cases h with
  | groups hlabels sample =>
      rw [sampleOf?_of_groups? rfl, sampleOf?_of_groups? rfl]
      simp only [hlabels.mem_iff]
      split
      · exact .some (List.Perm.refl _)
      · exact .none
  | paired hlabels hids value =>
      rw [sampleOf?_of_groups? rfl, sampleOf?_of_groups? rfl]
      simp only [hlabels.mem_iff]
      split
      · exact .some (hids.map (value label))
      · exact .none
  | bivariate x y => exact .none
  | contingency hrows hcols n => exact .none

namespace Alike

variable {p p' : PairProperties ℝ}

theorem names_eq (h : Alike p p') : p'.names = p.names := by
  rw [h.eq]
  rfl

theorem shape_eq (h : Alike p p') : p'.shape = p.shape := by
  rw [h.eq]

/-- A check is read through its p-value. -/
theorem nullKept_symmetry (h : Alike p p') (alpha : ℝ) :
    nullKept alpha p'.differenceSymmetry = nullKept alpha p.differenceSymmetry := by
  have hpValue : ∀ test : Option (TestOutput ℝ),
      nullKept alpha test = (test.map (·.pValue)).map fun x => decide (alpha ≤ x) := by
    rintro (_ | _) <;> rfl
  rw [hpValue, hpValue, h.symmetry]

/-- **The evidence is the same.** -/
theorem evidence_eq (h : Alike p p') (settings : Settings ℝ) :
    evidence p' settings = evidence p settings := by
  have hverdict : verdictOn p' settings = verdictOn p settings := by
    funext a
    cases a with
    | symmetricDifferences => exact h.nullKept_symmetry settings.alpha
    | _ => rw [h.eq]; rfl
  rw [evidence, evidence, hverdict]

/-- The properties are reported as the same numbers. -/
theorem snapshot_eq (h : Alike p p') : p'.snapshot = p.snapshot := by
  have hsymmetry := h.symmetry
  rw [h.eq]
  simp only [PairProperties.snapshot, hsymmetry]

/-- **The choice of a test is the same**, with its warnings. -/
theorem select_eq (h : Alike p p') (declared : AssumptionSet) (settings : Settings ℝ) :
    select p' (evidence p' settings) declared settings =
      select p (evidence p settings) declared settings := by
  rw [select, select, h.evidence_eq, h.shape_eq, h.names_eq]

theorem observedOrder_eq (h : Alike p p') (greater lesser : String) :
    p'.observedOrder greater lesser = p.observedOrder greater lesser := by
  have hgreater := h.reordered.sampleOf? greater
  have hlesser := h.reordered.sampleOf? lesser
  rw [PairProperties.observedOrder, PairProperties.observedOrder]
  generalize p.samples.sampleOf? greater = g at hgreater ⊢
  generalize p'.samples.sampleOf? greater = g' at hgreater ⊢
  generalize p.samples.sampleOf? lesser = l at hlesser ⊢
  generalize p'.samples.sampleOf? lesser = l' at hlesser ⊢
  cases hgreater with
  | none => rfl
  | some hg =>
      cases hlesser with
      | none => rfl
      | some hl =>
          show some (decide (mean _ < mean _)) = some (decide (mean _ < mean _))
          rw [mean_eq_of_perm hg, mean_eq_of_perm hl]

theorem observedSign_eq (h : Alike p p') : p'.observedSign = p.observedSign := by
  have hreordered := h.reordered
  rw [PairProperties.observedSign, PairProperties.observedSign]
  generalize p.samples = s at hreordered ⊢
  generalize p'.samples = s' at hreordered ⊢
  cases hreordered <;> rfl

/-- **A prediction came true in both or in none.** -/
theorem confirmed?_eq (h : Alike p p') (prediction : Prediction) :
    confirmed? p' prediction = confirmed? p prediction := by
  unfold confirmed?
  rw [h.shape_eq, h.observedSign_eq]
  simp only [h.observedOrder_eq]

end Alike

/-! ### The conclusion -/

/-- Two results that differ in the statistic and in effect sizes at most, and in a p-value only if it
was drawn at random. -/
structure SameConclusion (r r' : TestResult ℝ) : Prop where
  eq : r' = { r with
    statistic := r'.statistic
    pValue := r'.pValue
    effectSizes := r'.effectSizes }
  pValue : r.method ≠ .bootstrap → r'.pValue = r.pValue

namespace SameConclusion

variable {r r' : TestResult ℝ}

/-- A p-value that is taken towards a prediction is so in both. -/
theorem makeOneSided (h : SameConclusion r r') (confirmed : Bool) :
    SameConclusion (r.makeOneSided confirmed) (r'.makeOneSided confirmed) := by
  have hsided : r'.oneSided = r.oneSided := by rw [h.eq]
  rw [TestResult.makeOneSided, TestResult.makeOneSided, hsided]
  split
  · exact h
  · refine ⟨?_, fun hmethod => ?_⟩
    · rw [h.eq]
    · dsimp only
      rw [h.pValue hmethod]

theorem withPredictions {p p' : PairProperties ℝ} (hp : Alike p p') (h : SameConclusion r r')
    (predictions : List Prediction) : SameConclusion (StudyAnalysis.withPredictions p predictions r)
      (StudyAnalysis.withPredictions p' predictions r') := by
  have hpredicted : SameConclusion { r with predictions } { r' with predictions } := by
    refine ⟨?_, h.pValue⟩
    rw [h.eq]
  unfold StudyAnalysis.withPredictions
  split
  · rename_i prediction
    dsimp only
    rw [hp.confirmed?_eq]
    split
    · exact hpredicted.makeOneSided _
    · exact hpredicted
  · exact hpredicted

end SameConclusion

/-- **Reordered comparisons come to the same conclusion.** -/
theorem Alike.exists_testComparison [Tails ℝ] {p p' : PairProperties ℝ} (h : Alike p p')
    {settings : Settings ℝ} {declared : Declared} {predictions : List Prediction}
    {r : TestResult ℝ} (hr : testComparison settings declared predictions p = .ok r) :
    ∃ r', testComparison settings declared predictions p' = .ok r' ∧ SameConclusion r r' := by
  obtain ⟨s, x, hs, hx, rfl⟩ := testComparison_eq_ok_iff.1 hr
  rw [execute, mapError_eq_ok_iff] at hx
  obtain ⟨x', hx', hdf, hpValue⟩ := exists_runTest h.reordered hx
  refine ⟨_, testComparison_eq_ok_iff.2 ⟨s, x', ?_, ?_, rfl⟩, ?_⟩
  · rw [h.names_eq, h.select_eq, hs]
  · rw [execute, mapError_eq_ok_iff]
    exact hx'
  · refine SameConclusion.withPredictions h ⟨?_, hpValue⟩ predictions
    rw [TestResult.ofExecution, TestResult.ofExecution, h.names_eq, h.snapshot_eq, hdf]

end Exact

end StudyAnalysis
