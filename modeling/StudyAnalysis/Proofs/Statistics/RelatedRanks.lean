/-
**Rank sums of related conditions.**

Each block ranks the conditions among themselves, and the rank analysis of variance of related
conditions compares the sums of these ranks.  In exact arithmetic its statistic is a sum of squares
about the mean rank sum, divided by what ties leave of the variance within the blocks.  No rank sum
can lie further from the mean than its ranks do within the blocks, so that the statistic is a number
from zero to `n (k - 1)` for `n` blocks of `k` conditions; and the divisor vanishes only if every
block is tied as a whole.

Main definitions:

* `StudyAnalysis.Exact.rankSumSpread` — the sum of squares of the rank sums about their mean;
* `StudyAnalysis.Exact.blockFactor` — what ties leave of the spread of the ranks, on average over
  the blocks.

Main results:

* `StudyAnalysis.Exact.rankSumSpread_le` — **the spread of the rank sums is bounded** by the spread
  of the ranks within the blocks;
* `StudyAnalysis.Exact.blockFactor_pos_iff` — when ties leave something of it;
* `StudyAnalysis.Exact.friedman_eq` — the test in closed form;
* `StudyAnalysis.Exact.statistic_mem_of_friedman` — **the range of the statistic**;
* `StudyAnalysis.Exact.friedman_reorder` — **neither the order of the conditions nor that of the
  blocks matters**.
-/

import StudyAnalysis.Proofs.Statistics.SumsOfSquares

set_option autoImplicit false
set_option relaxedAutoImplicit false

namespace StudyAnalysis.Exact

open Numeric Fallible

/-! ### Ranks within blocks -/

section Blocks

variable (conditions : List (List ℝ)) (n : ℕ)

/-- The rank of a condition among all conditions of a block. -/
noncomputable def blockRank (i : ℕ) (c : List ℝ) : ℝ :=
  rankIn (block conditions i) (c.getD i 0)

@[simp] theorem length_block (i : ℕ) : (block conditions i).length = conditions.length :=
  List.length_map _

theorem ranks_block (i : ℕ) :
    (block conditions i).map (rankIn (block conditions i)) =
      conditions.map (blockRank conditions i) := by
  have hblock : block conditions i = conditions.map fun c => c.getD i 0 := by
    rw [block, numeral_zero]
  nth_rewrite 2 [hblock]
  rw [List.map_map]
  rfl

/-- **The rank sum of a condition** adds up its ranks over the blocks. -/
theorem conditionRankSums_eq : conditionRankSums conditions n =
    conditions.map fun c => ((List.range n).map fun i => blockRank conditions i c).sum := by
  rw [conditionRankSums, blocks, List.foldl_map, numeral_zero]
  simp only [ranks_eq, ranks_block, foldl_zipWith_add, zero_add]

/-- Every block gives away the same ranks. -/
theorem sum_conditionRankSums : (conditionRankSums conditions n).sum =
    conditions.length * (n * (conditions.length + 1) / 2 : ℝ) := by
  rw [conditionRankSums_eq, sum_map_sum_comm fun c i => blockRank conditions i c]
  have hblock : ∀ i, (conditions.map fun c => blockRank conditions i c).sum =
      conditions.length * (conditions.length + 1) / 2 := by
    intro i
    rw [← ranks_block, sum_map_rankIn, length_block]
  simp only [hblock, List.map_const', List.length_range, List.sum_replicate, nsmul_eq_mul]
  ring

/-- The sum of squares of the rank sums about their mean. -/
noncomputable def rankSumSpread : ℝ :=
  squaresAbout (n * (conditions.length + 1) / 2) (conditionRankSums conditions n)

theorem rankSumSpread_nonneg : 0 ≤ rankSumSpread conditions n :=
  squaresAbout_nonneg _ _

/-- The squares of the rank sums are those about their mean and the square of the mean. -/
theorem sum_square_conditionRankSums : ((conditionRankSums conditions n).map square).sum =
    rankSumSpread conditions n +
      conditions.length * square (n * (conditions.length + 1) / 2 : ℝ) := by
  have hzero : ((conditionRankSums conditions n).map square).sum =
      squaresAbout 0 (conditionRankSums conditions n) := by
    simp only [squaresAbout, sub_zero]
  have hlength : (conditionRankSums conditions n).length = conditions.length := by
    rw [conditionRankSums_eq, List.length_map]
  rw [hzero, squaresAbout_change (n * (conditions.length + 1) / 2), sum_conditionRankSums, hlength,
    sub_self, mul_zero, add_zero, sub_zero]
  rfl

end Blocks

/-! ### Ties within blocks -/

section Ties

variable {conditions : List (List ℝ)} {n : ℕ}

/-- What ties leave of the spread of the ranks, on average over the blocks. -/
noncomputable def blockFactor (conditions : List (List ℝ)) (n : ℕ) : ℝ :=
  mean ((blocks conditions n).map tieFactor)

theorem length_of_mem_blocks {row : List ℝ} (hrow : row ∈ blocks conditions n) :
    row.length = conditions.length := by
  obtain ⟨i, -, rfl⟩ := List.mem_map.1 hrow
  exact length_block conditions i

theorem length_blocks (conditions : List (List ℝ)) (n : ℕ) : (blocks conditions n).length = n := by
  rw [blocks, List.length_map, List.length_range]

theorem sum_tieFactor (conditions : List (List ℝ)) (n : ℕ) :
    ((blocks conditions n).map tieFactor).sum = n * blockFactor conditions n := by
  rw [blockFactor, ← length_mul_mean, List.length_map, length_blocks]

theorem tieFactor_nonneg_of_mem_blocks (hk : 2 ≤ conditions.length) :
    ∀ row ∈ blocks conditions n, 0 ≤ tieFactor row := by
  intro row hrow
  exact tieFactor_nonneg ((length_of_mem_blocks hrow).symm ▸ hk)

/-- **The correction for ties** within blocks, as the test computes it. -/
theorem blockFactor_eq (hk : 2 ≤ conditions.length) (hn : 0 < n) :
    let k : ℝ := conditions.length
    blockFactor conditions n =
      1 - ((blocks conditions n).map tieCorrection).sum / (n * k * (k * k - 1)) := by
  intro k
  have hcube : k ^ 3 - k ≠ 0 := (cube_sub_self_pos hk).ne'
  have hn' : (n : ℝ) ≠ 0 := Nat.cast_ne_zero.2 hn.ne'
  have hfactor : n * k * (k * k - 1) = n * (k ^ 3 - k) := by ring
  have hne : (blocks conditions n).map tieCorrection ≠ [] := by
    refine List.ne_nil_of_length_pos ?_
    rwa [List.length_map, length_blocks]
  have hmap : (blocks conditions n).map tieFactor =
      ((blocks conditions n).map tieCorrection).map fun t => -(k ^ 3 - k)⁻¹ * t + 1 := by
    rw [List.map_map]
    refine List.map_congr_left fun row hrow => ?_
    rw [tieFactor, length_of_mem_blocks hrow, Function.comp_apply, div_eq_inv_mul]
    ring
  rw [blockFactor, hmap, mean_map_affine _ _ hne, mean_eq, List.length_map, length_blocks, hfactor]
  field_simp
  ring

/-- **The divisor vanishes exactly if every block is tied as a whole.** -/
theorem blockFactor_pos_iff (hk : 2 ≤ conditions.length) (hn : 0 < n) :
    0 < blockFactor conditions n ↔
      ∃ row ∈ blocks conditions n, ∃ x ∈ row, ∃ y ∈ row, x ≠ y := by
  have hn' : (0 : ℝ) < n := Nat.cast_pos.2 hn
  rw [← mul_pos_iff_of_pos_left hn', ← sum_tieFactor,
    sum_map_pos_iff (tieFactor_nonneg_of_mem_blocks hk)]
  exact exists_congr fun row => and_congr_right fun hrow =>
    tieFactor_pos_iff ((length_of_mem_blocks hrow).symm ▸ hk)

/-- **The spread of the rank sums is bounded** by the spread of the ranks within the blocks: a rank
sum lies as far from the mean rank sum as all its ranks together lie from the mean rank. -/
theorem rankSumSpread_le (hk : 2 ≤ conditions.length) :
    let k : ℝ := conditions.length
    rankSumSpread conditions n ≤ n * (n * ((k ^ 3 - k) / 12 * blockFactor conditions n)) := by
  intro k
  let deviation (i : ℕ) (c : List ℝ) : ℝ := blockRank conditions i c - (k + 1) / 2
  have hsum : ∀ c, ((List.range n).map fun i => blockRank conditions i c).sum -
      n * (k + 1) / 2 = ((List.range n).map fun i => deviation i c).sum := by
    intro c
    simp only [deviation, sub_eq_add_neg, List.sum_map_add, List.map_const', List.length_range,
      List.sum_replicate, nsmul_eq_mul]
    ring
  have hblock : ∀ i, (conditions.map fun c => square (deviation i c)).sum =
      (k ^ 3 - k) / 12 * tieFactor (block conditions i) := by
    intro i
    have htwo : 2 ≤ (block conditions i).length := by rwa [length_block]
    have h := squaresAbout_ranks htwo
    rw [length_block, ranks_block, squaresAbout, List.map_map] at h
    exact h
  calc rankSumSpread conditions n
      = (conditions.map fun c => square ((List.range n).map fun i => deviation i c).sum).sum := by
        rw [rankSumSpread, squaresAbout, conditionRankSums_eq, List.map_map]
        simp only [Function.comp_def, ← hsum, k]
    _ ≤ (conditions.map fun c =>
          n * ((List.range n).map fun i => square (deviation i c)).sum).sum := by
        refine List.sum_le_sum fun c _ => ?_
        have h := square_sum_le ((List.range n).map fun i => deviation i c)
        rwa [List.length_map, List.length_range, List.map_map] at h
    _ = n * ((List.range n).map fun i =>
          (k ^ 3 - k) / 12 * tieFactor (block conditions i)).sum := by
        rw [List.sum_map_mul_left, sum_map_sum_comm fun c i => square (deviation i c)]
        simp only [hblock]
    _ = n * (n * ((k ^ 3 - k) / 12 * blockFactor conditions n)) := by
        have h := sum_tieFactor conditions n
        rw [blocks, List.map_map] at h
        rw [mul_left_comm (n : ℝ) ((k ^ 3 - k) / 12), ← h, List.sum_map_mul_left]
        rfl

end Ties

/-! ### The test -/

section Test

variable {conditions : List (List ℝ)} {n : ℕ}

/-- The statistic of the rank analysis of variance of `n` blocks. -/
noncomputable def friedmanStatistic (conditions : List (List ℝ)) (n : ℕ) : ℝ :=
  12 / (n * conditions.length * (conditions.length + 1)) * rankSumSpread conditions n /
    blockFactor conditions n

/-- **The range of the statistic**: it is at most `n (k - 1)`. -/
theorem friedmanStatistic_mem_Icc (hk : 2 ≤ conditions.length) (hn : 0 < n)
    (hties : 0 < blockFactor conditions n) :
    friedmanStatistic conditions n ∈ Set.Icc (0 : ℝ) (n * (conditions.length - 1)) := by
  have hn' : (0 : ℝ) < n := Nat.cast_pos.2 hn
  have hk' : (0 : ℝ) < conditions.length := Nat.cast_pos.2 (by omega)
  have hle := rankSumSpread_le (n := n) hk
  have hspread := rankSumSpread_nonneg conditions n
  refine ⟨by rw [friedmanStatistic]; positivity, ?_⟩
  rw [friedmanStatistic, div_le_iff₀ hties, div_mul_eq_mul_div, div_le_iff₀ (by positivity)]
  dsimp only at hle
  linear_combination 12 * hle

/-- The number of blocks is read off the first condition. -/
theorem length_headD (hne : conditions ≠ []) (hall : ∀ c ∈ conditions, c.length = n) :
    (conditions.headD []).length = n := by
  obtain ⟨c, rest, rfl⟩ := List.exists_cons_of_ne_nil hne
  exact hall c List.mem_cons_self

variable [Tails ℝ]

/-- The rank analysis of variance of aligned conditions that are large enough. -/
theorem friedman_eq (hk : 2 ≤ conditions.length) (hall : ∀ c ∈ conditions, c.length = n)
    (hn : 2 ≤ n) : friedman conditions =
      if blockFactor conditions n ≤ 0 then .error (.degenerate .tiedBlocks)
      else
        let q := friedmanStatistic conditions n
        let df : ℝ := conditions.length - 1
        .ok (.clamped q (Tails.chiSquare q df) (some df)) := by
  have hfirst : (conditions.headD []).length = n :=
    length_headD (List.ne_nil_of_length_pos (by omega)) hall
  have haligned : conditions.forM (requireAligned (conditions.headD [])) = .ok () :=
    forM_eq_ok_iff.2 fun c hc => (requireAligned_eq_ok_iff _ c).2 (hfirst.trans (hall c hc).symm)
  have hn' : (n : ℝ) ≠ 0 := Nat.cast_ne_zero.2 (by omega)
  have hk' : (conditions.length : ℝ) ≠ 0 := Nat.cast_ne_zero.2 (by omega)
  have hsucc : (conditions.length : ℝ) + 1 ≠ 0 := Nat.cast_add_one_ne_zero _
  have hstatistic : 12 / (n * conditions.length * (conditions.length + 1)) *
      ((conditionRankSums conditions n).map square).sum - 3 * n * (conditions.length + 1) =
        12 / (n * conditions.length * (conditions.length + 1)) * rankSumSpread conditions n := by
    rw [sum_square_conditionRankSums, square_eq]
    field_simp
    ring
  rw [friedman, (require_eq_ok_iff conditions 2).2 hk, ok_bind, numeral_zero, numeral_one]
  dsimp only
  rw [haligned, ok_bind, (require_eq_ok_iff (conditions.headD []) 2).2 (by omega), ok_bind,
    foldl_add_eq, zero_add, hfirst, count_eq, hfirst, count_eq, sum_eq,
    ← blockFactor_eq hk (by omega), friedmanStatistic, ← hstatistic]
  split <;> rfl

/-- The test is only computed for conditions that are large enough. -/
theorem sizes_of_friedman {out : TestOutput ℝ} (hall : ∀ c ∈ conditions, c.length = n)
    (h : friedman conditions = .ok out) : 2 ≤ conditions.length ∧ 2 ≤ n := by
  rw [friedman] at h
  obtain ⟨_, hk, h⟩ := bind_eq_ok_iff.1 h
  obtain ⟨_, -, h⟩ := bind_eq_ok_iff.1 h
  obtain ⟨_, hn, -⟩ := bind_eq_ok_iff.1 h
  have hk' : 2 ≤ conditions.length := (require_eq_ok_iff _ 2).1 hk
  have hn' : 2 ≤ (conditions.headD []).length := (require_eq_ok_iff _ 2).1 hn
  rw [length_headD (List.ne_nil_of_length_pos (by omega)) hall] at hn'
  exact ⟨hk', hn'⟩

/-- **The statistic of the test** lies between zero and `n (k - 1)`. -/
theorem statistic_mem_of_friedman {out : TestOutput ℝ} (hall : ∀ c ∈ conditions, c.length = n)
    (h : friedman conditions = .ok out) :
    out.statistic ∈ Set.Icc (0 : ℝ) (n * (conditions.length - 1)) := by
  obtain ⟨hk, hn⟩ := sizes_of_friedman hall h
  rw [friedman_eq hk hall hn] at h
  split at h
  · cases h
  · rename_i hties
    obtain rfl := Except.ok.inj h
    exact friedmanStatistic_mem_Icc hk (by omega) (not_le.1 hties)

/-- **Neither the order of the conditions nor that of the blocks matters.** -/
theorem friedman_reorder {conditions' : List (List ℝ)} {places : List ℕ} {out : TestOutput ℝ}
    (hall : ∀ c ∈ conditions, c.length = n) (hconditions : conditions'.Perm conditions)
    (hplaces : places.Perm (List.range n)) (h : friedman conditions = .ok out) :
    friedman (conditions'.map fun c => places.map fun i => c.getD i 0) = .ok out := by
  have hself : (conditions.map fun c => (List.range n).map fun i => c.getD i 0) = conditions := by
    rw [List.map_congr_left fun c hc => map_getD_range c (hall c hc), List.map_id']
  have hperm := friedman_eq_of_perm (fun (c : List ℝ) i => c.getD i 0) hconditions hplaces
  rw [tabulate, tabulate, hself, h] at hperm
  exact toOption_eq_some_iff.1 hperm

theorem friedman_perm {conditions' : List (List ℝ)} {out : TestOutput ℝ}
    (hall : ∀ c ∈ conditions, c.length = n) (hperm : conditions'.Perm conditions)
    (h : friedman conditions = .ok out) : friedman conditions' = .ok out := by
  have hself : (conditions'.map fun c => (List.range n).map fun i => c.getD i 0) = conditions' := by
    rw [List.map_congr_left fun c hc => map_getD_range c (hall c (hperm.subset hc)), List.map_id']
  rw [← hself]
  exact friedman_reorder hall hperm (List.Perm.refl _) h

end Test

end StudyAnalysis.Exact
