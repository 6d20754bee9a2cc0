/-
**Rank tests see the order of the values only.**

Ranks, ties and concordant pairs are found by comparing values with each other.  Two codings of the
same things by numbers that compare them alike therefore give the same ranks, ties and pairs, and so
the same rank tests, down to the reasons for which a test cannot be run.  In exact arithmetic, any two
strictly increasing codings do so: the values of an interval scale may be transformed by any strictly
increasing function, and the categories of an ordinal scale may be given any increasing scores in place
of their numbers.  The tails of the reference distributions are arbitrary functions here.

The proof has two steps.  What a test does to the coded things is first written as something done to
the things themselves, which are sorted and cut into runs by their codes.  There the code only occurs
inside of comparisons, which the two codings do not tell apart.

Main definitions:

* `StudyAnalysis.OrderAlike` — two codings that compare alike;
* `StudyAnalysis.RankTestsAgree` — two ways of reading samples that no rank test tells apart;
* `StudyAnalysis.Variable.levels` — the categories of some cells.

Main results:

* `StudyAnalysis.OrderAlike.ranks_eq`, `StudyAnalysis.OrderAlike.tieSizes_eq`,
  `StudyAnalysis.OrderAlike.concordance_eq` — ranks, ties and concordant pairs;
* `StudyAnalysis.OrderAlike.rankTestsAgree` — **the rank tests of codings that compare alike**;
* `StudyAnalysis.Exact.rankTests_depend_on_order` — **rank tests depend on the order only**.
-/

import StudyAnalysis.Proofs.Statistics.RankSums
import StudyAnalysis.Data.Variable
import StudyAnalysis.Statistics.Correlation

set_option autoImplicit false
set_option relaxedAutoImplicit false

namespace StudyAnalysis

open Numeric Fallible

/-! ### Computations on a list of codes -/

section Coded

variable {β γ δ : Type}

theorem tieRuns_map [BEq δ] (key : γ → δ) (f : β → γ) (bs : List β) :
    tieRuns key (bs.map f) = (tieRuns (key ∘ f) bs).map (List.map f) := by
  induction bs using tieRuns.induct (key ∘ f) with
  | case1 => simp
  | case2 b bs ih =>
      rw [List.map_cons, tieRuns_cons, tieRuns_cons, List.takeWhile_map, List.dropWhile_map]
      simp only [Function.comp_def] at ih ⊢
      rw [ih]
      rfl

theorem mergeSort_map (le : γ → γ → Bool) (f : β → γ) (bs : List β) :
    (bs.map f).mergeSort le = (bs.mergeSort fun b b' => le (f b) (f b')).map f := by
  symm
  exact List.map_mergeSort fun _ _ _ _ => rfl

theorem splitLike_map_left (f : β → γ) (groups : List (List β)) (xs : List δ) :
    splitLike (groups.map (List.map f)) xs = splitLike groups xs := by
  induction groups generalizing xs with
  | nil => rfl
  | cons g gs ih => rw [List.map_cons, splitLike, splitLike, List.length_map, ih]

theorem laterPairs_map (f : β → γ) (bs : List β) :
    laterPairs (bs.map f) = (laterPairs bs).map (Prod.map f f) := by
  induction bs with
  | nil => rfl
  | cons b bs ih =>
      rw [List.map_cons, laterPairs, laterPairs, ih, List.map_append, List.map_map, List.map_map]
      rfl

/-- The things that stand at one place of aligned lists. -/
def itemsAt (conditions : List (List β)) (i : ℕ) : List β :=
  conditions.filterMap (·[i]?)

end Coded

/-! ### What only counts -/

section Counted

variable {β β' γ γ' : Type}

theorem require_map (f : β → γ) (xs : List β) (needed : ℕ) :
    require (xs.map f) needed = require xs needed := by
  rw [require, require, List.length_map]

theorem requireAligned_map (f : β → γ) (g : β' → γ') (x : List β) (y : List β') :
    requireAligned (x.map f) (y.map g) = requireAligned x y := by
  rw [requireAligned, requireAligned, List.length_map, List.length_map]

theorem requireGroups_map {f : List β → List γ} (hf : ∀ g, (f g).length = g.length)
    (groups : List (List β)) : requireGroups (groups.map f) = requireGroups groups := by
  have hall : (groups.map f).forM (require · 2) = groups.forM (require · 2) := by
    rw [List.forM_eq_forM, List.forM_map]
    refine congrArg _ (funext fun g => ?_)
    rw [require, require, hf]
  rw [requireGroups, requireGroups, require_map, hall]

theorem count_map {α : Type} [Numeric α] (f : β → γ) (xs : List β) :
    (count (xs.map f) : α) = count xs := by
  rw [count, count, List.length_map]

end Counted

/-! ### Coded samples -/

section Samples

variable {α : Type} [Numeric α] {ι : Type} (code : ι → α)

theorem shareRanks_map {β γ : Type} (f : β → γ) (start : ℕ) (runs : List (List β)) :
    (shareRanks start (runs.map (List.map f)) : List (γ × α)) =
      (shareRanks start runs).map (Prod.map f id) := by
  induction runs generalizing start with
  | nil => rfl
  | cons run runs ih =>
      simp only [List.map_cons, shareRanks, List.length_map, ih, List.map_append, List.map_map]
      rfl

/-- Some things with their places, in ascending order of their codes. -/
def ascendingBy (items : List ι) : List (ι × ℕ) :=
  items.zipIdx.mergeSort fun c c' => totalLe (code c.1) (code c'.1)

theorem ascending_map (items : List ι) :
    ascending (items.map code) = (ascendingBy code items).map (Prod.map code id) := by
  rw [ascending, List.zipIdx_map, mergeSort_map]
  rfl

/-- The ranks of codes are shared in the runs of things with equal codes. -/
theorem ranks_map (items : List ι) :
    ranks (items.map code) =
      ((shareRanks 0 (tieRuns (fun c => code c.1) (ascendingBy code items))).mergeSort
        fun p q => p.1.2 ≤ q.1.2).map (·.2) := by
  rw [ranks, ascending_map, tieRuns_map, shareRanks_map, mergeSort_map, List.map_map]
  rfl

theorem tieSizes_map (items : List ι) :
    tieSizes (items.map code) =
      (tieRuns code (items.mergeSort fun i j => totalLe (code i) (code j))).map List.length := by
  rw [tieSizes, sorted, mergeSort_map, tieRuns_map, List.map_map]
  exact List.map_congr_left fun run _ => List.length_map _

theorem block_map {conditions : List (List ι)} {n i : ℕ}
    (hall : ∀ c ∈ conditions, c.length = n) (hi : i < n) :
    block (conditions.map (List.map code)) i = (itemsAt conditions i).map code := by
  rw [block, List.map_map, itemsAt, List.map_filterMap, ← List.filterMap_eq_map]
  refine List.filterMap_congr fun c hc => ?_
  have hc' : i < c.length := by rwa [hall c hc]
  rw [Function.comp_apply, List.getElem?_eq_getElem hc', Option.map_some, Function.comp_apply,
    List.getD_eq_getElem _ _ (by rwa [List.length_map]), List.getElem_map]

/-- The blocks of aligned conditions are codes of the things at the same places. -/
theorem blocks_map {conditions : List (List ι)} {n : ℕ} (hall : ∀ c ∈ conditions, c.length = n) :
    blocks (conditions.map (List.map code)) n =
      ((List.range n).map (itemsAt conditions)).map (List.map code) := by
  rw [blocks, List.map_map]
  exact List.map_congr_left fun i hi => block_map code hall (List.mem_range.1 hi)

end Samples

/-! ### Codings that compare alike -/

/-- Two codings of the same things by numbers that order and tie them alike, and in which the
difference of any two has the same sign. -/
structure OrderAlike {α : Type} [Numeric α] {ι : Type} (code code' : ι → α) : Prop where
  totalLe_eq (i j : ι) : totalLe (code' i) (code' j) = totalLe (code i) (code j)
  beq_eq (i j : ι) : (code' i == code' j) = (code i == code j)
  direction_eq (i j : ι) : direction (code' i) (code' j) = direction (code i) (code j)

/-- Two ways of reading samples as numbers that no rank test tells apart; the two variables of a
correlation are read in ways of their own. -/
structure RankTestsAgree {α : Type} [Numeric α] [Tails α] {β γ : Type}
    (read read' : List β → List α) (other other' : List γ → List α) : Prop where
  mannWhitneyU_eq (x y : List β) :
    mannWhitneyU (read' x) (read' y) = mannWhitneyU (read x) (read y)
  kruskalWallis_eq (groups : List (List β)) :
    kruskalWallis (groups.map read') = kruskalWallis (groups.map read)
  friedman_eq (conditions : List (List β)) :
    friedman (conditions.map read') = friedman (conditions.map read)
  spearman_eq (x : List β) (y : List γ) :
    spearman (read' x) (other' y) = spearman (read x) (other y)
  kendallTau_eq (x : List β) (y : List γ) :
    kendallTau (read' x) (other' y) = kendallTau (read x) (other y)

/-- What is read may be picked from something else before. -/
theorem RankTestsAgree.comp {α : Type} [Numeric α] [Tails α] {β β' γ γ' : Type}
    {read read' : List β → List α} {other other' : List γ → List α}
    (h : RankTestsAgree read read' other other') (pick : List β' → List β)
    (pick' : List γ' → List γ) :
    RankTestsAgree (read ∘ pick) (read' ∘ pick) (other ∘ pick') (other' ∘ pick') where
  mannWhitneyU_eq x y := h.mannWhitneyU_eq (pick x) (pick y)
  kruskalWallis_eq groups := by
    simpa only [List.map_map] using h.kruskalWallis_eq (groups.map pick)
  friedman_eq conditions := by
    simpa only [List.map_map] using h.friedman_eq (conditions.map pick)
  spearman_eq x y := h.spearman_eq (pick x) (pick' y)
  kendallTau_eq x y := h.kendallTau_eq (pick x) (pick' y)

namespace OrderAlike

variable {α : Type} [Numeric α] {ι κ : Type} {code code' : ι → α} (h : OrderAlike code code')
  {scale scale' : κ → α} (h' : OrderAlike scale scale')

include h

/-- **Ranks depend on the order only.** -/
theorem ranks_eq (items : List ι) : ranks (items.map code') = ranks (items.map code) := by
  have hascending : ascendingBy code' items = ascendingBy code items := by
    simp only [ascendingBy, h.totalLe_eq]
  have hruns : tieRuns (fun c : ι × ℕ => code' c.1) (ascendingBy code items) =
      tieRuns (fun c => code c.1) (ascendingBy code items) :=
    tieRuns_congr fun c _ c' _ => h.beq_eq c.1 c'.1
  rw [ranks_map, ranks_map, hascending, hruns]

/-- **Ties depend on the order only.** -/
theorem tieSizes_eq (items : List ι) : tieSizes (items.map code') = tieSizes (items.map code) := by
  rw [tieSizes_map, tieSizes_map, tieRuns_congr fun i _ j _ => h.beq_eq i j]
  simp only [h.totalLe_eq]

theorem tieCorrection_eq (items : List ι) :
    tieCorrection (items.map code') = tieCorrection (items.map code) := by
  rw [tieCorrection, tieCorrection, h.tieSizes_eq]

theorem tieSpread_eq (items : List ι) :
    tieSpread (items.map code') = tieSpread (items.map code) := by
  rw [tieSpread, tieSpread, h.tieSizes_eq]

include h' in
/-- **Whether pairs are concordant depends on the two orders only.** -/
theorem concordance_eq (x : List ι) (y : List κ) :
    concordance (x.map code') (y.map scale') = concordance (x.map code) (y.map scale) := by
  simp only [concordance, List.zip_map, laterPairs_map, List.map_map, Function.comp_def,
    Prod.map_fst, Prod.map_snd, h.direction_eq, h'.direction_eq]

theorem conditionRankSums_eq {conditions : List (List ι)} {n : ℕ}
    (hall : ∀ c ∈ conditions, c.length = n) :
    conditionRankSums (conditions.map (List.map code')) n =
      conditionRankSums (conditions.map (List.map code)) n := by
  simp only [conditionRankSums, blocks_map _ hall, List.foldl_map, h.ranks_eq, List.map_map,
    Function.comp_def]

variable [Tails α]

theorem mannWhitneyU_eq (x y : List ι) : mannWhitneyU (x.map code') (y.map code') =
    mannWhitneyU (x.map code) (y.map code) := by
  simp only [mannWhitneyU, uStatistic, uVariance, ← List.map_append, h.ranks_eq,
    h.tieCorrection_eq, require_map, count_map, List.length_map]

theorem kruskalWallis_eq (groups : List (List ι)) :
    kruskalWallis (groups.map (List.map code')) = kruskalWallis (groups.map (List.map code)) := by
  simp only [kruskalWallis, rankSpread, ← List.map_flatten, h.ranks_eq, h.tieCorrection_eq,
    requireGroups_map fun _ => List.length_map _, splitLike_map_left, count_map, List.length_map]

/-- The blocks of conditions are only formed if the conditions are aligned. -/
theorem friedman_eq (conditions : List (List ι)) :
    friedman (conditions.map (List.map code')) = friedman (conditions.map (List.map code)) := by
  have hfirst (code : ι → α) :
      (conditions.map (List.map code)).headD [] = (conditions.headD []).map code := by
    cases conditions <;> rfl
  have haligned (code : ι → α) :
      (conditions.map (List.map code)).forM (requireAligned ((conditions.headD []).map code)) =
        conditions.forM (requireAligned (conditions.headD [])) := by
    rw [List.forM_eq_forM, List.forM_map]
    exact congrArg _ (funext fun c => requireAligned_map _ _ _ _)
  simp only [friedman, hfirst, haligned, require_map, count_map, List.length_map]
  cases hforM : conditions.forM (requireAligned (conditions.headD [])) with
  | error err => rfl
  | ok _ =>
      have hall : ∀ c ∈ conditions, c.length = (conditions.headD []).length := fun c hc =>
        ((requireAligned_eq_ok_iff _ c).1 (forM_eq_ok_iff.1 hforM c hc)).symm
      simp only [h.conditionRankSums_eq hall, blocks_map _ hall, List.foldl_map,
        h.tieCorrection_eq]

section Correlations

include h'

theorem spearman_eq (x : List ι) (y : List κ) :
    spearman (x.map code') (y.map scale') = spearman (x.map code) (y.map scale) := by
  simp only [spearman, requireAligned_map, require_map, h.ranks_eq, h'.ranks_eq, List.length_map]

theorem kendallTau_eq (x : List ι) (y : List κ) :
    kendallTau (x.map code') (y.map scale') = kendallTau (x.map code) (y.map scale) := by
  simp only [kendallTau, concordanceVariance, requireAligned_map, require_map,
    h.concordance_eq h', h.tieSpread_eq, h'.tieSpread_eq, count_map, List.length_map]

/-- **No rank test tells codings that compare alike apart.** -/
theorem rankTestsAgree :
    RankTestsAgree (List.map code) (List.map code') (List.map scale) (List.map scale') where
  mannWhitneyU_eq := h.mannWhitneyU_eq
  kruskalWallis_eq := h.kruskalWallis_eq
  friedman_eq := h.friedman_eq
  spearman_eq := h.spearman_eq h'
  kendallTau_eq := h.kendallTau_eq h'

end Correlations

end OrderAlike

/-! ### Ordinal data -/

namespace Variable

variable {α : Type} (v : Variable)

/-- The categories of those cells that have one, by their places among the labels. -/
def levels (cells : List (Cell α)) : List (Fin v.labels.length) :=
  cells.filterMap fun cell => cell.text?.bind v.labels.finIdxOf?

/-- The cells of an ordinal variable are read as the numbers of their categories. -/
theorem filterMap_orderKey [Numeric α] (hscale : v.scale = .ordinal) :
    (List.filterMap v.orderKey : List (Cell α) → List α) =
      (List.map fun i => ofNat (i.val + 1)) ∘ v.levels := by
  refine funext fun cells => ?_
  rw [Function.comp_apply, levels, List.map_filterMap]
  refine List.filterMap_congr fun cell _ => ?_
  cases htext : cell.text? with
  | none => simp only [orderKey, hscale, htext, Option.bind_none, Option.map_none]
  | some label =>
      simp only [orderKey, hscale, htext, Option.bind_some, rankOf,
        List.idxOf?_eq_map_finIdxOf?_val, Option.map_map, Function.comp_def]

end Variable

/-! ### Exact arithmetic -/

namespace Exact

/-- **Strictly increasing codings compare alike.** -/
theorem orderAlike {ι : Type} [LinearOrder ι] {code code' : ι → ℝ} (h : StrictMono code)
    (h' : StrictMono code') : OrderAlike code code' where
  totalLe_eq i j := by
    rw [Bool.eq_iff_iff, totalLe_iff, totalLe_iff, h.le_iff_le, h'.le_iff_le]
  beq_eq i j := by
    rw [Bool.eq_iff_iff, beq_iff_eq, beq_iff_eq, h.injective.eq_iff, h'.injective.eq_iff]
  direction_eq i j := by
    have hlt : code' i - code' j < 0 ↔ code i - code j < 0 := by
      rw [sub_neg, sub_neg, h.lt_iff_lt, h'.lt_iff_lt]
    have hsign : signum (code' i - code' j) = signum (code i - code j) := by
      show (if code' i - code' j < 0 then (-1 : ℝ) else 1) = if code i - code j < 0 then -1 else 1
      simp only [hlt]
    have hbeq : (code' i == code' j) = (code i == code j) := by
      rw [Bool.eq_iff_iff, beq_iff_eq, beq_iff_eq, h.injective.eq_iff, h'.injective.eq_iff]
    rw [direction, direction, hsign, hbeq]

theorem strictMono_rank (n : ℕ) : StrictMono fun i : Fin n => (ofNat (i.val + 1) : ℝ) := by
  intro i j hij
  simpa using hij

/-- **Rank tests depend on the order of the values only.**  Strictly increasing functions of all values
leave the results of the rank tests as they are, and so do increasing scores of the categories of
ordinal variables in place of their numbers.  The two variables of a correlation may be transformed in
different ways. -/
theorem rankTests_depend_on_order [Tails ℝ] :
    (∀ f g : ℚ → ℚ, StrictMono f → StrictMono g →
      RankTestsAgree (List.map fun q : ℚ => (q : ℝ)) (List.map fun q : ℚ => (f q : ℝ))
        (List.map fun q : ℚ => (q : ℝ)) (List.map fun q : ℚ => (g q : ℝ))) ∧
    ∀ v w : Variable, v.scale = .ordinal → w.scale = .ordinal →
      ∀ (score : Fin v.labels.length → ℝ) (score' : Fin w.labels.length → ℝ),
        StrictMono score → StrictMono score' →
          RankTestsAgree (List.filterMap v.orderKey) (fun cells => (v.levels cells).map score)
            (List.filterMap w.orderKey) (fun cells => (w.levels cells).map score') := by
  have hcast : StrictMono fun q : ℚ => (q : ℝ) := Rat.cast_strictMono
  refine ⟨fun f g hf hg => ?_, fun v w hv hw score score' hscore hscore' => ?_⟩
  · exact (orderAlike hcast (hcast.comp hf)).rankTestsAgree (orderAlike hcast (hcast.comp hg))
  · rw [v.filterMap_orderKey hv, w.filterMap_orderKey hw]
    exact ((orderAlike (strictMono_rank _) hscore).rankTestsAgree
      (orderAlike (strictMono_rank _) hscore')).comp v.levels w.levels

/-- The cubes of two samples have the ranks of the samples, and so have powers of ten in place of the
grades one, two and three. -/
theorem rankTests_of_cubes_and_powers :
    let _tails := densityTails
    let v : Variable := ⟨"grade", .ordinal, some ["low", "fair", "high"]⟩
    let first : List (Cell ℝ) := [.text "fair", .text "high", .text "high"]
    let second : List (Cell ℝ) := [.text "low", .text "high"]
    let a : List ℝ := [2, 3, 3]
    let b : List ℝ := [1, 3]
    (∃ p, mannWhitneyU a b = .ok (.clamped 4 p none) ∧
      mannWhitneyU ([8, 27, 27] : List ℝ) [1, 27] = .ok (.clamped 4 p none)) ∧
    ∃ p, kruskalWallis ([first, second].map (List.filterMap v.orderKey)) =
        .ok (.clamped (5 / 12) p (some 1)) ∧
      kruskalWallis ([[10, 100, 100], [1, 100]] : List (List ℝ)) =
        .ok (.clamped (5 / 12) p (some 1)) := by
  intro _tails v first second a b
  have ha : 2 ≤ a.length := Nat.le_succ 2
  have hb : 2 ≤ b.length := le_refl 2
  have hspread : ¬ uVariance a b ≤ 0 := by
    rw [uVariance_of_six_pairs]
    norm_num
  obtain ⟨hvalues, hscores⟩ := rankTests_depend_on_order
  constructor
  · have hok : mannWhitneyU a b = .ok (.clamped 4 (Tails.normalTwoSided (uScore a b)) none) := by
      rw [mannWhitneyU_eq ha hb, if_neg hspread, uStatistic_of_six_pairs]
    have hcubes : StrictMono fun q : ℚ => q ^ 3 := Odd.strictMono_pow (by decide)
    have hagree := (hvalues _ id hcubes strictMono_id).mannWhitneyU_eq [2, 3, 3] [1, 3]
    norm_num at hagree
    exact ⟨_, hok, hagree.trans hok⟩
  · have hstatistic : (uStatistic a b - a.length * b.length / 2) ^ 2 / uVariance a b = 5 / 12 := by
      rw [uStatistic_of_six_pairs, uVariance_of_six_pairs]
      norm_num [a, b]
    have hok : kruskalWallis [a, b] =
        .ok (.clamped (5 / 12) (Tails.chiSquare (5 / 12) 1) (some 1)) := by
      rw [kruskalWallis_pair_eq ha hb, if_neg hspread, hstatistic]
    have hranks : [first, second].map (List.filterMap v.orderKey) = [a, b] := by
      show [[((2 : ℕ) : ℝ), (3 : ℕ), (3 : ℕ)], [((1 : ℕ) : ℝ), (3 : ℕ)]] = [a, b]
      norm_num [a, b]
    have hpowers : StrictMono fun i : Fin v.labels.length => (10 : ℝ) ^ i.val :=
      fun i j hij => pow_lt_pow_right₀ (by norm_num) hij
    have hagree := (hscores v v rfl rfl _ _ hpowers hpowers).kruskalWallis_eq [first, second]
    rw [hranks] at hagree
    have hscored : [first, second].map (fun cells => (v.levels cells).map fun i => (10 : ℝ) ^ i.val) =
        [[10, 100, 100], [1, 100]] := by
      show [[(10 : ℝ) ^ 1, 10 ^ 2, 10 ^ 2], [(10 : ℝ) ^ 0, 10 ^ 2]] = _
      norm_num
    rw [hscored] at hagree
    exact ⟨_, hranks ▸ hok, hagree.trans hok⟩

end Exact

end StudyAnalysis
