/-
**Reordering groups.**

The tests of several groups see them as a collection: neither the order of the groups nor, in exact
arithmetic, the order of the values within a group matters.  For related groups the values of one
participant have to stay together, so what may be reordered are the groups and the participants.

Main definitions:

* `StudyAnalysis.Exact.Regrouped` — the same groups in some order, each with its values in some
  order.

Main results:

* `StudyAnalysis.Exact.oneWayAnova_eq_of_regrouped`, `StudyAnalysis.Exact.levene_eq_of_regrouped`,
  `StudyAnalysis.Exact.kruskalWallis_eq_of_regrouped` — **groups may be reordered**;
* `StudyAnalysis.Exact.conditionRankSums_tabulate` — the rank sums of related groups by counting;
* `StudyAnalysis.Exact.friedman_eq_of_perm` — **related groups and their blocks may be reordered**.
-/

import StudyAnalysis.Proofs.Statistics.TwoSamples

set_option autoImplicit false
set_option relaxedAutoImplicit false

namespace StudyAnalysis.Exact

open Numeric Fallible

/-! ### Groups in another order -/

/-- The same groups in some order, each with its values in some order. -/
def Regrouped {β : Type} (gs hs : List (List β)) : Prop :=
  ∃ ks, gs.Perm ks ∧ List.Forall₂ List.Perm ks hs

/-- A table of the values of a function, with a row for each element of the first list. -/
def tabulate {ι κ β : Type} (f : ι → κ → β) (rows : List ι) (cols : List κ) : List (List β) :=
  rows.map fun row => cols.map (f row)

/-- A sum over the rows and columns of a table may be taken in either order. -/
theorem sum_map_sum_comm {ι κ : Type} (f : ι → κ → ℝ) (rows : List ι) (cols : List κ) :
    (rows.map fun i => (cols.map (f i)).sum).sum =
      (cols.map fun j => (rows.map fun i => f i j).sum).sum := by
  simpa only [Multiset.map_coe, Multiset.sum_coe] using
    Multiset.sum_map_sum_map (rows : Multiset ι) (cols : Multiset κ)

/-- A list of a known length is read place by place. -/
theorem map_getD_range {β : Type} {d : β} (xs : List β) {n : ℕ} (h : xs.length = n) :
    (List.range n).map (fun i => xs.getD i d) = xs := by
  subst h
  refine List.ext_getElem ?_ fun i hi hi' => ?_
  · rw [List.length_map, List.length_range]
  · rw [List.getElem_map, List.getElem_range, List.getD_eq_getElem _ _ hi']

namespace Regrouped

variable {β γ : Type} {gs hs : List (List β)}

theorem of_perm (h : gs.Perm hs) : Regrouped gs hs :=
  ⟨hs, h, List.forall₂_same.2 fun g _ => List.Perm.refl g⟩

theorem length_eq (h : Regrouped gs hs) : gs.length = hs.length := by
  obtain ⟨ks, hks, hhs⟩ := h
  exact hks.length_eq.trans hhs.length_eq

/-- The groups are mapped to groups in another order if each is mapped up to its order. -/
theorem map (h : Regrouped gs hs) {f : List β → List γ}
    (hf : ∀ g k : List β, g.Perm k → (f g).Perm (f k)) : Regrouped (gs.map f) (hs.map f) := by
  obtain ⟨ks, hks, hhs⟩ := h
  refine ⟨ks.map f, hks.map f, ?_⟩
  rw [List.forall₂_map_left_iff, List.forall₂_map_right_iff]
  exact hhs.imp hf

/-- What does not depend on the order within groups has the same values, in some order. -/
theorem map_perm (h : Regrouped gs hs) {f : List β → γ}
    (hf : ∀ g k : List β, g.Perm k → f g = f k) : (gs.map f).Perm (hs.map f) := by
  obtain ⟨ks, hks, hhs⟩ := h
  refine (hks.map f).trans (List.Perm.of_eq ?_)
  clear hks
  induction hhs with
  | nil => rfl
  | cons hperm _ ih => rw [List.map_cons, List.map_cons, hf _ _ hperm, ih]

theorem flatten_perm (h : Regrouped gs hs) : gs.flatten.Perm hs.flatten := by
  obtain ⟨ks, hks, hhs⟩ := h
  refine hks.flatten.trans ?_
  clear hks
  induction hhs with
  | nil => exact List.Perm.refl _
  | cons hperm _ ih => exact hperm.append ih

/-- Reordering the rows and the columns of a table regroups it. -/
theorem tabulate {ι κ : Type} (f : ι → κ → β) {rows rows' : List ι} {cols cols' : List κ}
    (hrows : rows.Perm rows') (hcols : cols.Perm cols') :
    Regrouped (Exact.tabulate f rows cols) (Exact.tabulate f rows' cols') := by
  refine ⟨Exact.tabulate f rows' cols, hrows.map _, ?_⟩
  rw [Exact.tabulate, Exact.tabulate, List.forall₂_map_left_iff, List.forall₂_map_right_iff,
    List.forall₂_same]
  exact fun row _ => hcols.map _

/-- A requirement on the sizes of the groups. -/
theorem forall_length_iff (h : Regrouped gs hs) (n : ℕ) :
    (∀ g ∈ gs, n ≤ g.length) ↔ ∀ g ∈ hs, n ≤ g.length := by
  have hsizes : (gs.map List.length).Perm (hs.map List.length) :=
    h.map_perm fun _ _ hperm => hperm.length_eq
  have hmem : (∀ size ∈ gs.map List.length, n ≤ size) ↔ ∀ size ∈ hs.map List.length, n ≤ size :=
    forall_congr' fun size => by rw [hsizes.mem_iff]
  rwa [List.forall_mem_map, List.forall_mem_map] at hmem

end Regrouped

/-! ### Independent groups -/

section Independent

variable {gs hs : List (List ℝ)}

theorem requireGroups_eq_ok_iff :
    requireGroups gs = .ok () ↔ 2 ≤ gs.length ∧ ∀ g ∈ gs, 2 ≤ g.length := by
  simp only [requireGroups, bind_eq_ok_iff, forM_eq_ok_iff, require_eq_ok_iff]
  constructor
  · rintro ⟨⟨⟩, hlength, hall⟩
    exact ⟨(require_eq_ok_iff gs 2).1 hlength, hall⟩
  · rintro ⟨hlength, hall⟩
    exact ⟨(), (require_eq_ok_iff gs 2).2 hlength, hall⟩

theorem toOption_requireGroups (h : Regrouped gs hs) :
    (requireGroups gs).toOption = (requireGroups hs).toOption := by
  refine toOption_eq_of_ok_iff ?_
  rw [requireGroups_eq_ok_iff, requireGroups_eq_ok_iff, h.length_eq, h.forall_length_iff]

/-- The overall mean is that of all observations; the mean of nothing is zero. -/
theorem grandMean_eq (gs : List (List ℝ)) : grandMean gs = mean gs.flatten := by
  rw [grandMean, mean_eq, sum_eq, ofNat_eq]
  by_cases hne : gs.flatten = []
  · simp [hne]
  · rw [max_eq_left (List.length_pos_iff.2 hne)]

theorem betweenTerm_eq_of_perm (centre : ℝ) {g k : List ℝ} (h : g.Perm k) :
    betweenTerm centre g = betweenTerm centre k := by
  rw [betweenTerm, betweenTerm, count_eq, count_eq, h.length_eq, mean_eq_of_perm h]

/-- **The sums of squares do not depend on any order.** -/
theorem sumsOfSquares_eq_of_regrouped (h : Regrouped gs hs) :
    sumsOfSquares gs = sumsOfSquares hs := by
  have hgrand : grandMean gs = grandMean hs := by
    rw [grandMean_eq, grandMean_eq, mean_eq_of_perm h.flatten_perm]
  have hwithin : (gs.map fun g => sum (squaredDeviations (mean g) g)).Perm
      (hs.map fun g => sum (squaredDeviations (mean g) g)) := by
    refine h.map_perm fun g k hperm => ?_
    rw [squaredDeviations_eq, squaredDeviations_eq, mean_eq_of_perm hperm, (hperm.map _).sum_eq]
  have hbetween : (gs.map (betweenTerm (grandMean hs))).Perm
      (hs.map (betweenTerm (grandMean hs))) :=
    h.map_perm fun g k hperm => betweenTerm_eq_of_perm _ hperm
  simp only [sumsOfSquares, foldl_add_eq, hgrand, hwithin.sum_eq, hbetween.sum_eq]

variable [Tails ℝ]

/-- **The analysis of variance does not depend on any order.** -/
theorem oneWayAnova_eq_of_regrouped (h : Regrouped gs hs) :
    (oneWayAnova gs).toOption = (oneWayAnova hs).toOption := by
  have hcount : (count gs : ℝ) = count hs := by rw [count_eq, count_eq, h.length_eq]
  rw [oneWayAnova, oneWayAnova, sumsOfSquares_eq_of_regrouped h, hcount,
    h.flatten_perm.length_eq]
  exact toOption_bind_congr (toOption_requireGroups h) fun _ => rfl

/-- **Neither does the test of equal variances.** -/
theorem levene_eq_of_regrouped (h : Regrouped gs hs) :
    (levene gs).toOption = (levene hs).toOption := by
  refine oneWayAnova_eq_of_regrouped (h.map fun g k hperm => ?_)
  rw [medianDeviations, medianDeviations, median_eq_of_perm hperm]
  exact hperm.map _

omit [Tails ℝ] in
/-- Cutting a list that is mapped from the values of some groups maps the groups. -/
theorem splitLike_map (f : ℝ → ℝ) (gs : List (List ℝ)) :
    splitLike gs (gs.flatten.map f) = gs.map (List.map f) := by
  induction gs with
  | nil => rfl
  | cons g gs ih =>
      rw [splitLike, List.flatten_cons, List.map_append, List.take_left' (List.length_map _),
        List.drop_left' (List.length_map _), ih, List.map_cons]

omit [Tails ℝ] in
theorem rankSpread_eq_of_regrouped (h : Regrouped gs hs) : rankSpread gs = rankSpread hs := by
  have hrank : rankIn gs.flatten = rankIn hs.flatten := rankIn_eq_of_perm h.flatten_perm
  have hranked : Regrouped (gs.map (List.map (rankIn hs.flatten)))
      (hs.map (List.map (rankIn hs.flatten))) := h.map fun g k hperm => hperm.map _
  simp only [rankSpread, ranks_eq, splitLike_map, foldl_add_eq, hrank, h.flatten_perm.length_eq]
  refine congrArg _ (hranked.map_perm fun g k hperm => ?_).sum_eq
  rw [count_eq, count_eq, sum_eq, sum_eq, hperm.sum_eq, hperm.length_eq]

/-- **The rank analysis of variance does not depend on any order.** -/
theorem kruskalWallis_eq_of_regrouped (h : Regrouped gs hs) :
    (kruskalWallis gs).toOption = (kruskalWallis hs).toOption := by
  have hcount : (count gs.flatten : ℝ) = count hs.flatten := by
    rw [count_eq, count_eq, h.flatten_perm.length_eq]
  rw [kruskalWallis, kruskalWallis, rankSpread_eq_of_regrouped h]
  refine toOption_bind_congr (toOption_requireGroups h) fun _ => ?_
  dsimp only
  rw [hcount, tieCorrection_eq_of_perm h.flatten_perm, h.length_eq]

end Independent

/-! ### Related groups -/

section Related

variable {κ β : Type}

variable (val : κ → β → ℝ) {labels labels' : List κ} {ids ids' : List β}

/-- The values of one participant, block by block. -/
theorem blocks_tabulate (labels : List κ) (ids : List β) :
    blocks (tabulate val labels ids) ids.length =
      ids.map fun id => labels.map fun label => val label id := by
  refine List.ext_getElem ?_ fun i hi hi' => ?_
  · rw [blocks, List.length_map, List.length_map, List.length_range]
  · rw [List.length_map] at hi'
    simp only [blocks, block, tabulate, List.getElem_map, List.getElem_range, List.map_map]
    refine List.map_congr_left fun label _ => ?_
    rw [Function.comp_apply, List.getD_eq_getElem _ _ (by rwa [List.length_map]), List.getElem_map]

/-- Adding up lists that are mapped from one list adds up place by place. -/
theorem foldl_zipWith_add (g : β → κ → ℝ) (s : κ → ℝ) (labels : List κ) (ids : List β) :
    ids.foldl (fun sums id => List.zipWith (· + ·) sums (labels.map (g id))) (labels.map s) =
      labels.map fun label => s label + (ids.map fun id => g id label).sum := by
  induction ids generalizing s with
  | nil => simp
  | cons id ids ih =>
      rw [List.foldl_cons, List.zipWith_map, List.zipWith_self, ih]
      refine List.map_congr_left fun label _ => ?_
      rw [List.map_cons, List.sum_cons, add_assoc]

/-- **The rank sums of related groups**: each participant ranks the groups. -/
theorem conditionRankSums_tabulate (labels : List κ) (ids : List β) :
    conditionRankSums (tabulate val labels ids) ids.length = labels.map fun label =>
      (ids.map fun id => rankIn (labels.map fun l => val l id) (val label id)).sum := by
  have hzero : (tabulate val labels ids).map (fun _ => (0 : ℝ)) = labels.map fun _ => 0 := by
    rw [tabulate, List.map_map]
    rfl
  rw [conditionRankSums, blocks_tabulate, List.foldl_map, numeral_zero, hzero]
  simp only [ranks_eq, List.map_map, Function.comp_def, foldl_zipWith_add, zero_add]

/-- The sum over the groups of the squares of their rank sums. -/
theorem sum_square_conditionRankSums_eq (hlabels : labels.Perm labels') (hids : ids.Perm ids') :
    ((conditionRankSums (tabulate val labels ids) ids.length).map square).sum =
      ((conditionRankSums (tabulate val labels' ids') ids'.length).map square).sum := by
  have hrank : ∀ id, rankIn (labels.map fun l => val l id) =
      rankIn (labels'.map fun l => val l id) := fun id => rankIn_eq_of_perm (hlabels.map _)
  have hsum : ∀ label, (ids.map fun id => rankIn (labels.map fun l => val l id) (val label id)).sum =
      (ids'.map fun id => rankIn (labels'.map fun l => val l id) (val label id)).sum := by
    intro label
    simp only [hrank]
    exact (hids.map _).sum_eq
  simp only [conditionRankSums_tabulate, List.map_map, hsum]
  exact (hlabels.map _).sum_eq

theorem sum_tieCorrection_eq (hlabels : labels.Perm labels') (hids : ids.Perm ids') :
    ((blocks (tabulate val labels ids) ids.length).map tieCorrection).sum =
      ((blocks (tabulate val labels' ids') ids'.length).map tieCorrection).sum := by
  have hties : ∀ id, tieCorrection (labels.map fun l => val l id) =
      tieCorrection (labels'.map fun l => val l id) := fun id =>
    tieCorrection_eq_of_perm (hlabels.map _)
  simp only [blocks_tabulate, List.map_map, Function.comp_def, hties]
  exact (hids.map _).sum_eq

theorem length_headD_tabulate (hne : labels ≠ []) :
    ((tabulate val labels ids).headD []).length = ids.length := by
  obtain ⟨label, rest, rfl⟩ := List.exists_cons_of_ne_nil hne
  exact List.length_map _

/-- Related groups are aligned. -/
theorem forM_requireAligned_tabulate (hne : labels ≠ []) :
    (tabulate val labels ids).forM (requireAligned ((tabulate val labels ids).headD [])) = .ok () := by
  refine forM_eq_ok_iff.2 fun g hg => if_pos ?_
  obtain ⟨label, -, rfl⟩ := List.mem_map.1 hg
  rw [length_headD_tabulate val hne, List.length_map]

/-- **Related groups and their participants may be reordered.** -/
theorem friedman_eq_of_perm [Tails ℝ] (hlabels : labels.Perm labels') (hids : ids.Perm ids') :
    (friedman (tabulate val labels ids)).toOption =
      (friedman (tabulate val labels' ids')).toOption := by
  by_cases hne : labels = []
  · obtain rfl : labels' = [] := by rwa [hne, List.nil_perm] at hlabels
    rw [hne]
    rfl
  have hne' : labels' ≠ [] := fun h => hne (by rwa [h, List.perm_nil] at hlabels)
  have hregrouped := Regrouped.tabulate val hlabels hids
  have hfirst : ((tabulate val labels ids).headD []).length =
      ((tabulate val labels' ids').headD []).length := by
    rw [length_headD_tabulate val hne, length_headD_tabulate val hne', hids.length_eq]
  have hn : (count ((tabulate val labels ids).headD []) : ℝ) =
      count ((tabulate val labels' ids').headD []) := by
    rw [count_eq, count_eq, hfirst]
  have hk : (count (tabulate val labels ids) : ℝ) = count (tabulate val labels' ids') := by
    rw [count_eq, count_eq, hregrouped.length_eq]
  rw [friedman, friedman, require_eq_of_length hregrouped.length_eq]
  dsimp only
  rw [forM_requireAligned_tabulate val hne, forM_requireAligned_tabulate val hne',
    require_eq_of_length hfirst, foldl_add_eq, foldl_add_eq, length_headD_tabulate val hne,
    length_headD_tabulate val hne', sum_tieCorrection_eq val hlabels hids, sum_eq, sum_eq,
    sum_square_conditionRankSums_eq val hlabels hids, hn, hk]

end Related

end StudyAnalysis.Exact
