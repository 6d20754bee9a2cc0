/-
**What the rank tests answer and report.**

A rank test fails as degenerate exactly on samples that are tied as a whole, and otherwise divides by
a positive number.  The effect size that is reported with its answer has the meaning that its name
promises: that of independent groups is the share of the ranks' sum of squares that lies between the
groups, that of related conditions is a concordance from zero to one, and that of two paired samples
compares the rank sums of the two signs.

Main definitions:

* `StudyAnalysis.Exact.Reports` — a run gives an answer and one effect size;
* `StudyAnalysis.Exact.Tied` — all values of a sample are equal;
* `StudyAnalysis.Exact.DegenerateIff` — a test fails exactly in one case, and divides by a positive
  number in every other.

Main results:

* `StudyAnalysis.Exact.kruskalWallis_reports_share` — **the rank analysis of variance** reports a
  share of the sum of squares of the ranks;
* `StudyAnalysis.Exact.friedman_reports_concordance` — **the rank analysis of variance of related
  conditions** reports a concordance, whatever the order of conditions and blocks;
* `StudyAnalysis.Exact.wilcoxonSignedRank_reports_balance` — **the signed-rank test** never fails on
  enough differences, and changes the sign of what it reports when the samples are exchanged;
* `StudyAnalysis.Exact.rankTests_degenerate_iff_tied` — **degenerate is what is tied**.
-/

import StudyAnalysis.Proofs.Statistics.RelatedRanks
import StudyAnalysis.Proofs.Statistics.SignedRanks
import StudyAnalysis.Selection.Execution

set_option autoImplicit false
set_option relaxedAutoImplicit false

namespace StudyAnalysis.Exact

open Numeric Fallible

/-! ### Reports -/

section Reports

/-- A run answers `out` and reports one effect size under a name. -/
def Reports (run : Except (AnalysisError ℝ) (Execution ℝ)) (out : TestOutput ℝ) (name : String)
    (size : ℝ) : Prop :=
  ∃ x, run = .ok x ∧ x.output = out ∧ x.effectSizes.get? name = some size

/-- What a test gives is what its step of an analysis reports. -/
theorem reports_of_runTest {method : TestMethod} {samples : Samples ℝ} {settings : Settings ℝ}
    {out : TestOutput ℝ} {name : String} {size : ℝ} [Tails ℝ]
    (h : ∀ {σ : Type} (source : DrawSource σ) (start : σ) (resamples : ℕ),
      runTest source start resamples method samples = .ok (.ofEffect out name size)) :
    Reports (execute method samples settings) out name size := by
  refine ⟨_, mapError_eq_ok_iff.2 (h _ _ _), rfl, ?_⟩
  have hfinite : Numeric.isFinite size = true := rfl
  rw [Execution.ofEffect, if_pos hfinite, NameMap.get?_insert, if_pos rfl]

variable [Tails ℝ] {out : TestOutput ℝ} (labels : List String) (settings : Settings ℝ)

theorem reports_kruskalWallis {groups : List (List ℝ)} (h : kruskalWallis groups = .ok out) :
    Reports (execute .kruskalWallis (.groups labels groups) settings) out "epsilon_squared"
      (epsilonSquared out.statistic groups.flatten.length) := by
  refine reports_of_runTest fun _ _ _ => ?_
  rw [runTest, h, ok_bind, pure_eq_ok]

theorem reports_friedman {conditions : List (List ℝ)} (h : friedman conditions = .ok out) :
    Reports (execute .friedman (.paired labels conditions) settings) out "kendalls_w"
      (out.statistic / ((conditions.headD []).length * (conditions.length - 1))) := by
  refine reports_of_runTest fun _ _ _ => ?_
  rw [runTest, h, ok_bind, pure_eq_ok, numeral_one]
  rfl

theorem reports_wilcoxonSignedRank {x y : List ℝ} (h : wilcoxonSignedRank x y = .ok out) :
    Reports (execute .wilcoxonSignedRank (.paired labels [x, y]) settings) out "rank_biserial"
      (matchedRankBiserial out.statistic ((x.zip y).countP fun p => !(p.1 == p.2))) := by
  refine reports_of_runTest fun _ _ _ => ?_
  rw [runTest, twoSamples, ok_bind]
  dsimp only
  rw [h, ok_bind, pure_eq_ok]

end Reports

/-! ### Independent groups -/

section Independent

variable [Tails ℝ] {out : TestOutput ℝ} {groups : List (List ℝ)}

/-- **The rank analysis of variance reports the share of the sum of squares of the ranks that lies
between the groups.** -/
theorem kruskalWallis_reports_share (h : kruskalWallis groups = .ok out) (labels : List String)
    (settings : Settings ℝ) :
    let size := epsilonSquared out.statistic groups.flatten.length
    size = etaSquared (splitLike groups (ranks groups.flatten)) ∧ 0 ≤ out.statistic ∧
      size ∈ Set.Icc 0 1 ∧
      Reports (execute .kruskalWallis (.groups labels groups) settings) out "epsilon_squared"
        size := by
  intro size
  obtain ⟨_, hrequire, -⟩ := bind_eq_ok_iff.1 h
  have hn : 2 ≤ groups.flatten.length := two_le_length_flatten hrequire
  have hn' : (0 : ℝ) < groups.flatten.length - 1 := sub_pos.2 (Nat.one_lt_cast.2 hn)
  have hshare : size = etaSquared (rankedGroups groups) := epsilonSquared_eq_etaSquared h
  have hmem : size ∈ Set.Icc 0 1 := hshare ▸ etaSquared_mem_Icc (rankedGroups groups)
  have hnonneg : 0 ≤ out.statistic / (groups.flatten.length - 1) := by
    rw [← epsilonSquared_eq hn]
    exact hmem.1
  rw [le_div_iff₀ hn', zero_mul] at hnonneg
  exact ⟨hshare, hnonneg, hmem, reports_kruskalWallis labels settings h⟩

omit [Tails ℝ] in
/-- With two pairs of tied observations the groups take 49 of 66 parts of the sum of squares. -/
theorem kruskalWallis_reports_share_of_six :
    let _tails := densityTails
    let groups : List (List ℝ) := [[1, 2], [2, 3], [3, 5]]
    ∃ out, kruskalWallis groups = .ok out ∧ out.statistic = 245 / 66 ∧
      splitLike groups (ranks groups.flatten) = [[1, 5 / 2], [5 / 2, 9 / 2], [9 / 2, 6]] ∧
      etaSquared (splitLike groups (ranks groups.flatten)) = 49 / 66 ∧
      Reports (execute .kruskalWallis (.groups ["a", "b", "c"] groups) .standard) out
        "epsilon_squared" (49 / 66) := by
  intro _tails groups
  have hrequire : requireGroups groups = .ok () := requireGroups_eq_ok_iff.2 (by simp [groups])
  have hranked : rankedGroups groups = [[1, 5 / 2], [5 / 2, 9 / 2], [9 / 2, 6]] := by
    rw [rankedGroups_eq]
    norm_num [groups, rankIn, List.countP_cons]
  have hspread : rankSpread groups = 49 / 4 := by
    rw [rankSpread_eq_sumsOfSquares (by simp [groups]), hranked, sumsOfSquares_fst]
    norm_num [betweenTerm, mean_eq, square_eq]
  have hties : tieFactor groups.flatten = 33 / 35 := by
    have hcorrection : tieCorrection groups.flatten = 12 := by
      norm_num [groups, tieCorrection_eq_sum, tiesIn, List.countP_cons]
    rw [tieFactor, hcorrection]
    norm_num [groups]
  obtain ⟨out, hout, hstatistic⟩ : ∃ out, kruskalWallis groups = .ok out ∧
      out.statistic = 245 / 66 := by
    rw [kruskalWallis_eq hrequire, hties, hspread, if_neg (by norm_num)]
    refine ⟨_, rfl, ?_⟩
    norm_num [groups, TestOutput.clamped]
  obtain ⟨hshare, -, -, hreports⟩ := kruskalWallis_reports_share hout ["a", "b", "c"] .standard
  have hsize : epsilonSquared out.statistic groups.flatten.length = 49 / 66 := by
    rw [epsilonSquared_eq (by simp [groups]), hstatistic]
    norm_num [groups]
  rw [hsize] at hshare hreports
  exact ⟨out, hout, hstatistic, hranked, hshare.symm, hreports⟩

end Independent

/-! ### Related conditions -/

section Related

variable [Tails ℝ] {out : TestOutput ℝ} {conditions : List (List ℝ)} {n : ℕ}

/-- **The rank analysis of variance of related conditions reports a concordance** from zero to one,
and does not depend on the order of the conditions and of the blocks. -/
theorem friedman_reports_concordance (hall : ∀ c ∈ conditions, c.length = n)
    (h : friedman conditions = .ok out) (labels : List String) (settings : Settings ℝ) :
    let k : ℝ := conditions.length
    let size := out.statistic / (n * (k - 1))
    out.statistic ∈ Set.Icc 0 (n * (k - 1)) ∧ size ∈ Set.Icc 0 1 ∧
      Reports (execute .friedman (.paired labels conditions) settings) out "kendalls_w" size ∧
      (∀ conditions' : List (List ℝ), conditions'.Perm conditions →
        friedman conditions' = .ok out) ∧
      ∀ places : List ℕ, places.Perm (List.range n) →
        friedman (conditions.map fun c => places.map fun i => c.getD i 0) = .ok out := by
  intro k size
  obtain ⟨hk, hn⟩ := sizes_of_friedman hall h
  have hmax : 0 < n * (k - 1) := by
    have hn' : (0 : ℝ) < n := Nat.cast_pos.2 (by omega)
    exact mul_pos hn' (sub_pos.2 (Nat.one_lt_cast.2 hk))
  have hmem : out.statistic ∈ Set.Icc 0 (n * (k - 1)) := statistic_mem_of_friedman hall h
  have hreports := reports_friedman labels settings h
  rw [length_headD (List.ne_nil_of_length_pos (by omega)) hall] at hreports
  exact ⟨hmem, ⟨div_nonneg hmem.1 hmax.le, (div_le_one hmax).2 hmem.2⟩, hreports,
    fun _ hperm => friedman_perm hall hperm h,
    fun _ hplaces => friedman_reorder hall (List.Perm.refl _) hplaces h⟩

omit [Tails ℝ] in
/-- Two blocks that rank three conditions nearly in opposite orders have a concordance of 1 / 14. -/
theorem friedman_reports_concordance_of_two_blocks :
    let _tails := densityTails
    let conditions : List (List ℝ) := [[1, 2], [2, 2], [3, 1]]
    ∃ out, friedman conditions = .ok out ∧ out.statistic = 2 / 7 ∧
      Reports (execute .friedman (.paired ["a", "b", "c"] conditions) .standard) out "kendalls_w"
        (1 / 14) ∧
      friedman [[3, 1], [1, 2], [2, 2]] = .ok out ∧
      friedman [[2, 1], [2, 2], [1, 3]] = .ok out := by
  intro _tails conditions
  have hk : 2 ≤ conditions.length := Nat.le_succ 2
  have hall : ∀ c ∈ conditions, c.length = 2 := by simp [conditions]
  have hsums : conditionRankSums conditions 2 = [7 / 2, 9 / 2, 4] := by
    rw [conditionRankSums_eq]
    norm_num [conditions, blockRank, block, rankIn, List.range_succ, List.countP_cons]
  have hspread : rankSumSpread conditions 2 = 1 / 2 := by
    rw [rankSumSpread, hsums]
    norm_num [conditions, squaresAbout, square_eq]
  have hties : blockFactor conditions 2 = 7 / 8 := by
    rw [blockFactor_eq hk Nat.zero_lt_two]
    norm_num [conditions, blocks, block, List.range_succ, tieCorrection_eq_sum, tiesIn,
      List.countP_cons]
  obtain ⟨out, hout, hstatistic⟩ : ∃ out, friedman conditions = .ok out ∧
      out.statistic = 2 / 7 := by
    rw [friedman_eq hk hall (le_refl 2), hties, if_neg (by norm_num)]
    refine ⟨_, rfl, ?_⟩
    rw [TestOutput.clamped, friedmanStatistic, hspread, hties]
    norm_num [conditions]
  obtain ⟨-, -, hreports, hconditions, hblocks⟩ :=
    friedman_reports_concordance hall hout ["a", "b", "c"] .standard
  have hsize : out.statistic / ((2 : ℕ) * (conditions.length - 1)) = 1 / 14 := by
    rw [hstatistic]
    norm_num [conditions]
  rw [hsize] at hreports
  refine ⟨out, hout, hstatistic, hreports, hconditions _ ?_, hblocks [1, 0] (by decide)⟩
  exact @List.perm_append_comm _ [[3, 1]] [[1, 2], [2, 2]]

end Related

/-! ### Paired samples -/

section Paired

variable [Tails ℝ] {x y : List ℝ}

/-- **The signed-rank test of enough differences never fails**, its statistic lies between zero and
the sum of all ranks, and exchanging the samples keeps the p-value and changes the sign of the
effect size. -/
theorem wilcoxonSignedRank_reports_balance (h : x.length = y.length)
    (hn : 2 ≤ (nonzero (pairedDifferences x y)).length) (labels : List String)
    (settings : Settings ℝ) :
    let ds := nonzero (pairedDifferences x y)
    let total : ℝ := ds.length * (ds.length + 1) / 2
    signedRankVariance ds = ((ranks (ds.map Numeric.abs)).map square).sum / 4 ∧
      0 < signedRankVariance ds ∧ (x.zip y).countP (fun p => !(p.1 == p.2)) = ds.length ∧
      ∃ out out', wilcoxonSignedRank x y = .ok out ∧ wilcoxonSignedRank y x = .ok out' ∧
        out.statistic = positiveRankSum ds ∧ out.statistic ∈ Set.Icc 0 total ∧
        out'.statistic = total - out.statistic ∧ out'.pValue = out.pValue ∧
        let size := matchedRankBiserial out.statistic ds.length
        size ∈ Set.Icc (-1) 1 ∧
        Reports (execute .wilcoxonSignedRank (.paired labels [x, y]) settings) out "rank_biserial"
          size ∧
        Reports (execute .wilcoxonSignedRank (.paired labels [y, x]) settings) out' "rank_biserial"
          (-size) := by
  intro ds total
  have hpos : 0 < ds.length := Nat.zero_lt_two.trans_le hn
  have hswap : nonzero (pairedDifferences y x) = ds.map (-·) := nonzero_swap x y
  have hn' : 2 ≤ (nonzero (pairedDifferences y x)).length := by rwa [hswap, List.length_map]
  have hok := wilcoxonSignedRank_eq h hn
  have hok' := wilcoxonSignedRank_eq h.symm hn'
  have hstatistic : positiveRankSum (nonzero (pairedDifferences y x)) =
      total - positiveRankSum ds := by
    rw [hswap]
    exact positiveRankSum_map_neg ne_zero_of_mem_nonzero
  have hp := answer_wilcoxonSignedRank_swap h
  rw [hok, hok', answer_ok, answer_ok] at hp
  have h0 := positiveRankSum_nonneg ds
  have h1 : positiveRankSum ds ≤ total := positiveRankSum_le ne_zero_of_mem_nonzero
  have hreports := reports_wilcoxonSignedRank labels settings hok
  have hreports' := reports_wilcoxonSignedRank labels settings hok'
  rw [countP_zip_ne] at hreports hreports'
  have hsize : matchedRankBiserial (positiveRankSum (nonzero (pairedDifferences y x)))
      (nonzero (pairedDifferences y x)).length =
        -matchedRankBiserial (positiveRankSum ds) ds.length := by
    rw [hstatistic, hswap, List.length_map]
    exact matchedRankBiserial_sub hpos _
  refine ⟨signedRankVariance_eq ds, signedRankVariance_pos (List.ne_nil_of_length_pos hpos),
    countP_zip_ne x y, _, _, hok, hok', rfl, ⟨h0, h1⟩, hstatistic,
    (Prod.mk.inj (Option.some.inj hp)).1, matchedRankBiserial_mem_Icc hpos h0 h1, hreports, ?_⟩
  exact hsize ▸ hreports'

omit [Tails ℝ] in
/-- Of four pairs one has equal values; the two greatest differences are tied and positive. -/
theorem wilcoxonSignedRank_reports_balance_of_four_pairs :
    let _tails := densityTails
    let x : List ℝ := [3, 1, 5, 4]
    let y : List ℝ := [1, 2, 3, 4]
    nonzero (pairedDifferences x y) = [2, -1, 2] ∧
      ∃ out out', wilcoxonSignedRank x y = .ok out ∧ wilcoxonSignedRank y x = .ok out' ∧
        out.statistic = 5 ∧ out'.statistic = 1 ∧ out'.pValue = out.pValue ∧
        Reports (execute .wilcoxonSignedRank (.paired ["a", "b"] [x, y]) .standard) out
          "rank_biserial" (2 / 3) ∧
        Reports (execute .wilcoxonSignedRank (.paired ["a", "b"] [y, x]) .standard) out'
          "rank_biserial" (-(2 / 3)) := by
  intro _tails x y
  have hds : nonzero (pairedDifferences x y) = [2, -1, 2] := by
    norm_num [x, y, nonzero, pairedDifferences, List.filter_cons]
  have hn : 2 ≤ (nonzero (pairedDifferences x y)).length := by
    rw [hds]
    exact Nat.le_succ 2
  have hsum : positiveRankSum ([2, -1, 2] : List ℝ) = 5 := by
    rw [positiveRankSum_eq]
    norm_num [rankIn, List.countP_cons, List.filter_cons]
  have hlength : x.length = y.length := rfl
  obtain ⟨-, -, -, out, out', hout, hout', hstatistic, -, hcomplement, hp, -, hreports,
    hreports'⟩ := wilcoxonSignedRank_reports_balance hlength hn ["a", "b"] .standard
  rw [hds, hsum] at hstatistic
  have hsize :
      matchedRankBiserial out.statistic (nonzero (pairedDifferences x y)).length = 2 / 3 := by
    rw [matchedRankBiserial_eq (Nat.zero_lt_two.trans_le hn), hds, hstatistic]
    norm_num
  rw [hsize] at hreports hreports'
  refine ⟨hds, out, out', hout, hout', hstatistic, ?_, hp, hreports, hreports'⟩
  rw [hcomplement, hds, hstatistic]
  norm_num

end Paired

/-! ### Tied samples -/

section Tied

/-- All values of a sample are equal. -/
def Tied (xs : List ℝ) : Prop :=
  ∀ x ∈ xs, ∀ y ∈ xs, x = y

theorem not_tied_iff {xs : List ℝ} : ¬ Tied xs ↔ ∃ x ∈ xs, ∃ y ∈ xs, x ≠ y := by
  simp only [Tied, not_forall, exists_prop]

/-- A test is degenerate exactly in one case; in every other it succeeds, and divides by a positive
number. -/
structure DegenerateIff (run : Except SampleError (TestOutput ℝ)) (tied : Prop) (divisor : ℝ) :
    Prop where
  degenerate_iff : (∃ cause, run = .error (.degenerate cause)) ↔ tied
  divisor_pos : ¬ tied → 0 < divisor
  exists_ok : ¬ tied → ∃ out, run = .ok out

/-- A test that checks its divisor is degenerate in the case in which that is not positive. -/
theorem degenerateIff_of_eq {run : Except SampleError (TestOutput ℝ)} {tied : Prop} {divisor : ℝ}
    {cause : Degeneracy} {out : TestOutput ℝ}
    (h : run = if divisor ≤ 0 then .error (.degenerate cause) else .ok out)
    (hdivisor : 0 < divisor ↔ ¬ tied) : DegenerateIff run tied divisor := by
  by_cases hle : divisor ≤ 0
  · rw [if_pos hle] at h
    have htied : tied := not_not.1 (hdivisor.not.1 (not_lt.2 hle))
    exact ⟨⟨fun _ => htied, fun _ => ⟨cause, h⟩⟩, hdivisor.2, fun hne => absurd htied hne⟩
  · rw [if_neg hle] at h
    have huntied : ¬ tied := hdivisor.1 (not_le.1 hle)
    refine ⟨⟨?_, fun htied => absurd htied huntied⟩, hdivisor.2, fun _ => ⟨out, h⟩⟩
    rintro ⟨cause', herror⟩
    rw [h] at herror
    cases herror

variable [Tails ℝ]

/-- **A rank test is degenerate exactly on tied samples**: the tests of independent groups if all
observations are equal, that of related conditions if each block is tied within itself.  On all
other samples they divide by a positive number. -/
theorem rankTests_degenerate_iff_tied :
    (∀ a b : List ℝ, 2 ≤ a.length → 2 ≤ b.length →
      DegenerateIff (mannWhitneyU a b) (Tied (a ++ b)) (uVariance a b)) ∧
    (∀ groups : List (List ℝ), 2 ≤ groups.length → (∀ g ∈ groups, 2 ≤ g.length) →
      let n : ℝ := groups.flatten.length
      DegenerateIff (kruskalWallis groups) (Tied groups.flatten)
        (1 - tieCorrection groups.flatten / (n * n * n - n))) ∧
    ∀ (conditions : List (List ℝ)) (n : ℕ), 2 ≤ conditions.length → 2 ≤ n →
      (∀ c ∈ conditions, c.length = n) →
      let k : ℝ := conditions.length
      DegenerateIff (friedman conditions) (∀ row ∈ blocks conditions n, Tied row)
        (1 - ((blocks conditions n).map tieCorrection).sum / (n * k * (k * k - 1))) := by
  refine ⟨fun a b ha hb => ?_, fun groups hmany hall => ?_, fun conditions n hk hn hall => ?_⟩
  · have hne : a ≠ [] := List.ne_nil_of_length_pos (by omega)
    have hne' : b ≠ [] := List.ne_nil_of_length_pos (by omega)
    exact degenerateIff_of_eq (mannWhitneyU_eq ha hb)
      ((uVariance_pos_iff hne hne').trans not_tied_iff.symm)
  · have hrequire := requireGroups_eq_ok_iff.2 ⟨hmany, hall⟩
    intro n
    rw [show n * n * n - n = n ^ 3 - n by ring]
    exact degenerateIff_of_eq (kruskalWallis_eq hrequire)
      ((tieFactor_pos_iff (two_le_length_flatten hrequire)).trans not_tied_iff.symm)
  · have huntied : (∃ row ∈ blocks conditions n, ∃ x ∈ row, ∃ y ∈ row, x ≠ y) ↔
        ¬ ∀ row ∈ blocks conditions n, Tied row := by
      simp only [Tied, not_forall, exists_prop]
    intro k
    rw [← blockFactor_eq hk (by omega)]
    exact degenerateIff_of_eq (friedman_eq hk hall hn)
      ((blockFactor_pos_iff hk (by omega)).trans huntied)

omit [Tails ℝ] in
/-- Two blocks that are tied within themselves leave nothing to compare, although they differ. -/
theorem rankTests_of_tied_blocks :
    let _tails := densityTails
    (∃ cause, mannWhitneyU ([1, 1] : List ℝ) [1, 1] = .error (.degenerate cause)) ∧
      (∃ out, kruskalWallis ([[1, 2], [1, 2]] : List (List ℝ)) = .ok out) ∧
      ∃ cause, friedman ([[1, 2], [1, 2]] : List (List ℝ)) = .error (.degenerate cause) := by
  intro _tails
  obtain ⟨hmannWhitney, hkruskal, hfriedman⟩ := rankTests_degenerate_iff_tied
  refine ⟨(hmannWhitney [1, 1] [1, 1] (le_refl 2) (le_refl 2)).degenerate_iff.2 ?_,
    (hkruskal [[1, 2], [1, 2]] (le_refl 2) (by simp)).exists_ok ?_,
    (hfriedman [[1, 2], [1, 2]] 2 (le_refl 2) (le_refl 2) (by simp)).degenerate_iff.2 ?_⟩
  · simp [Tied]
  · rw [not_tied_iff]
    exact ⟨1, by simp, 2, by simp, by norm_num⟩
  · simp [Tied, blocks, block, List.range_succ]

end Tied

end StudyAnalysis.Exact
