/-
**The test of orders.**

The test of orders divides its score by the geometric mean of the numbers of pairs that either
variable leaves untied.  In exact arithmetic that mean vanishes exactly if a variable is constant;
otherwise the statistic lies between minus one and one.

The p-value comes from a normal approximation, whose variance is that of untied variables less one
term for the ties of either variable.  Both terms are sums over groups of equal values.  What the
variance leaves out is the share of the pairs and triples that both variables tie: with these terms
it is positive for any two variables that vary, without them it can be zero or negative.  Then the
p-value is one, however well the variables agree.  It takes many ties in both variables: without
ties in one of them, or if no group of equal values holds more than two thirds of the observations,
the variance is positive.

Main definitions:

* `StudyAnalysis.Exact.concordancePValue` — the p-value of the test, before it is clamped;
* `StudyAnalysis.Exact.jointTies` — the part of the variance that is due to ties in both variables;
* `StudyAnalysis.Exact.jointVariance` — the variance with that part.

Main results:

* `StudyAnalysis.Exact.kendallTau_eq` — the test in closed form;
* `StudyAnalysis.Exact.kendallTau_bounds_and_symmetries` — **the statistic is bounded**, and what
  the test answers if the observations are exchanged, reflected or reordered;
* `StudyAnalysis.Exact.concordanceVariance_eq_sub`, `StudyAnalysis.Exact.jointVariance_pos` — what
  the variance leaves out;
* `StudyAnalysis.Exact.kendallTau_pValue_of_varying` — **where the p-value comes from**.
-/

import StudyAnalysis.Proofs.Statistics.Concordance
import StudyAnalysis.Proofs.Selection.RankTests

set_option autoImplicit false
set_option relaxedAutoImplicit false

namespace StudyAnalysis.Exact

open Numeric Fallible

/-! ### The spread of ties -/

section TieSpread

variable {xs ys : List ℝ}

/-- What an observation in a group of `t` equal values contributes to the spread of ties. -/
noncomputable def tieTerm (t : ℕ) : ℝ :=
  (t - 1) * (2 * t + 5)

theorem tieTerm_strictMono : StrictMono tieTerm := by
  intro t u h
  have hlt : (t : ℝ) < u := Nat.cast_lt.2 h
  have ht : (0 : ℝ) ≤ t := Nat.cast_nonneg t
  rw [tieTerm, tieTerm, ← sub_pos]
  have hfactor : ((u : ℝ) - 1) * (2 * u + 5) - (t - 1) * (2 * t + 5) =
      (u - t) * (2 * (u + t) + 3) := by ring
  rw [hfactor]
  exact mul_pos (sub_pos.2 hlt) (by linarith)

/-- **The spread of ties by counting.** -/
theorem tieSpread_eq_sum (xs : List ℝ) :
    tieSpread xs = (xs.map fun x => tieTerm (tiesIn xs x)).sum := by
  rw [tieSpread, foldl_add_eq, ← sum_tieSizes tieTerm]
  simp only [tieTerm, numeral_zero, numeral_one, ofNat_eq, zero_add, mul_assoc]

theorem tieSpread_eq_of_perm (h : xs.Perm ys) : tieSpread xs = tieSpread ys := by
  rw [tieSpread, tieSpread, tieSizes_eq_of_perm h]

theorem tiesIn_map_neg (xs : List ℝ) (x : ℝ) : tiesIn (xs.map (-·)) (-x) = tiesIn xs x := by
  rw [tiesIn, List.countP_map, tiesIn]
  simp only [Function.comp_def, neg_inj]

theorem tieSpread_map_neg (xs : List ℝ) : tieSpread (xs.map (-·)) = tieSpread xs := by
  rw [tieSpread_eq_sum, tieSpread_eq_sum, List.map_map]
  simp only [Function.comp_def, tiesIn_map_neg]

/-- Different values are not spread at all. -/
theorem tieSpread_of_nodup (h : xs.Nodup) : tieSpread xs = 0 := by
  rw [tieSpread_eq_sum]
  refine List.sum_eq_zero fun t ht => ?_
  obtain ⟨x, hx, rfl⟩ := List.mem_map.1 ht
  have hone : tiesIn xs x = 1 := List.count_eq_one_of_mem h hx
  rw [hone, tieTerm, Nat.cast_one, sub_self, zero_mul]

/-- The spread of ties of a constant variable. -/
theorem tieSpread_lt_iff : tieSpread xs < xs.length * tieTerm xs.length ↔
    ∃ x ∈ xs, ∃ y ∈ xs, x ≠ y := by
  rw [tieSpread_eq_sum]
  exact sum_tiesIn_lt_iff tieTerm_strictMono

/-- A bound for all groups of equal values bounds the spread. -/
theorem tieSpread_le {bound : ℝ} (h : ∀ x ∈ xs, tieTerm (tiesIn xs x) ≤ bound) :
    tieSpread xs ≤ xs.length * bound := by
  have hsum := List.sum_le_card_nsmul (xs.map fun x => tieTerm (tiesIn xs x)) bound
    (List.forall_mem_map.2 h)
  rw [List.length_map, nsmul_eq_mul] at hsum
  rwa [tieSpread_eq_sum]

/-- Groups of at most two thirds of the observations are spread less than half as much as all
observations in one group. -/
theorem two_mul_tieSpread_lt (hne : xs ≠ []) (h : ∀ x ∈ xs, 3 * tiesIn xs x ≤ 2 * xs.length) :
    2 * tieSpread xs < xs.length * tieTerm xs.length := by
  have hn : (0 : ℝ) < xs.length := cast_length_pos hne
  have hbound : ∀ x ∈ xs,
      tieTerm (tiesIn xs x) ≤ 8 / 9 * (xs.length : ℝ) ^ 2 + 2 * xs.length - 5 := by
    intro x hx
    have ht : 3 * (tiesIn xs x : ℝ) ≤ 2 * xs.length := by exact_mod_cast h x hx
    have ht0 : (0 : ℝ) ≤ tiesIn xs x := Nat.cast_nonneg _
    have hsquare : (3 * (tiesIn xs x : ℝ)) ^ 2 ≤ (2 * xs.length) ^ 2 :=
      pow_le_pow_left₀ (by positivity) ht 2
    rw [tieTerm]
    linarith
  have hle := tieSpread_le hbound
  have hsquares : 0 < 2 * ((xs.length : ℝ) - 9 / 4) ^ 2 + 279 / 8 := by positivity
  have hrest : (xs.length : ℝ) * tieTerm xs.length -
      2 * (xs.length * (8 / 9 * (xs.length : ℝ) ^ 2 + 2 * xs.length - 5)) =
        xs.length * ((2 * ((xs.length : ℝ) - 9 / 4) ^ 2 + 279 / 8) / 9) := by
    rw [tieTerm]
    ring
  have hpos := mul_pos hn (div_pos hsquares (show (0 : ℝ) < 9 by norm_num))
  linarith

end TieSpread

/-! ### The variance of the score -/

section Variance

variable {x y x' y' : List ℝ}

theorem concordanceVariance_eq (x y : List ℝ) : concordanceVariance x y =
    (x.length * tieTerm x.length - tieSpread x - tieSpread y) / 18 := by
  simp only [concordanceVariance, count_eq, numeral_one, tieTerm, mul_assoc]

/-- **The variance is positive** exactly if ties do not take it away. -/
theorem concordanceVariance_pos_iff : 0 < concordanceVariance x y ↔
    tieSpread x + tieSpread y < x.length * tieTerm x.length := by
  rw [concordanceVariance_eq, div_pos_iff_of_pos_right (by norm_num), sub_sub, sub_pos]

/-- One variable without ties leaves the variance positive. -/
theorem concordanceVariance_pos_of_nodup (h : x.length = y.length)
    (hx : ∃ a ∈ x, ∃ b ∈ x, a ≠ b) (hy : ∃ a ∈ y, ∃ b ∈ y, a ≠ b) (hnodup : x.Nodup ∨ y.Nodup) :
    0 < concordanceVariance x y := by
  rw [concordanceVariance_pos_iff]
  rcases hnodup with hnodup | hnodup
  · rw [tieSpread_of_nodup hnodup, zero_add, h]
    exact tieSpread_lt_iff.2 hy
  · rw [tieSpread_of_nodup hnodup, add_zero]
    exact tieSpread_lt_iff.2 hx

/-- So do groups of equal values that hold at most two thirds of the observations. -/
theorem concordanceVariance_pos_of_share (h : x.length = y.length) (hne : x ≠ [])
    (hx : ∀ a ∈ x, 3 * tiesIn x a ≤ 2 * x.length)
    (hy : ∀ b ∈ y, 3 * tiesIn y b ≤ 2 * y.length) : 0 < concordanceVariance x y := by
  have hne' : y ≠ [] := List.ne_nil_of_length_pos (h ▸ List.length_pos_iff.2 hne)
  have hxle := two_mul_tieSpread_lt hne hx
  have hyle := two_mul_tieSpread_lt hne' hy
  rw [← h] at hyle
  rw [concordanceVariance_pos_iff]
  linarith

theorem concordanceVariance_comm (h : x.length = y.length) :
    concordanceVariance y x = concordanceVariance x y := by
  rw [concordanceVariance_eq, concordanceVariance_eq, h, sub_right_comm]

theorem concordanceVariance_map_neg (x y : List ℝ) :
    concordanceVariance x (y.map (-·)) = concordanceVariance x y := by
  rw [concordanceVariance_eq, concordanceVariance_eq, tieSpread_map_neg]

theorem concordanceVariance_eq_of_perm (hx : x'.Perm x) (hy : y'.Perm y) :
    concordanceVariance x' y' = concordanceVariance x y := by
  rw [concordanceVariance_eq, concordanceVariance_eq, hx.length_eq, tieSpread_eq_of_perm hx,
    tieSpread_eq_of_perm hy]

end Variance

/-! ### Ties in both variables -/

section JointTies

variable {x y xs : List ℝ}

/-- The number of triples of equal values. -/
noncomputable def tiedTriples (xs : List ℝ) : ℝ :=
  (xs.map fun x => ((tiesIn xs x : ℝ) - 1) * (tiesIn xs x - 2)).sum / 6

/-- The number of triples whose values are not all equal. -/
noncomputable def untiedTriples (xs : List ℝ) : ℝ :=
  xs.length * (xs.length - 1) * (xs.length - 2) / 6 - tiedTriples xs

/-- The part of the variance of the score that is due to pairs and triples tied in one variable
meeting such that are tied in the other. -/
noncomputable def jointTies (x y : List ℝ) : ℝ :=
  2 * tiedPairs x * tiedPairs y / (x.length * (x.length - 1)) +
    4 * tiedTriples x * tiedTriples y / (x.length * (x.length - 1) * (x.length - 2))

/-- The variance of the score, by the pairs and the triples that either variable leaves untied. -/
noncomputable def jointVariance (x y : List ℝ) : ℝ :=
  2 * untiedPairs x * untiedPairs y / (x.length * (x.length - 1)) +
    4 * untiedTriples x * untiedTriples y / (x.length * (x.length - 1) * (x.length - 2))

theorem tiesIn_cons (a : ℝ) (xs : List ℝ) (x : ℝ) :
    tiesIn (a :: xs) x = tiesIn xs x + if a = x then 1 else 0 := by
  simp only [tiesIn, List.countP_cons, decide_eq_true_eq]

theorem tiedPairs_cons (a : ℝ) (xs : List ℝ) :
    tiedPairs (a :: xs) = tiesIn xs a + tiedPairs xs := by
  rw [tiedPairs, laterPairs, List.countP_append, List.countP_map, tiesIn]
  simp only [Function.comp_def, eq_comm (a := a)]
  rfl

/-- What one more value adds to the ties of the others. -/
theorem sum_tiesIn_cons (a : ℝ) (pool xs : List ℝ) :
    (xs.map fun x => (tiesIn (a :: pool) x : ℝ) - 1).sum =
      (xs.map fun x => (tiesIn pool x : ℝ) - 1).sum + tiesIn xs a := by
  induction xs with
  | nil => simp [tiesIn]
  | cons x xs ih =>
      rw [List.map_cons, List.map_cons, List.sum_cons, List.sum_cons, ih, tiesIn_cons, tiesIn_cons]
      simp only [eq_comm (a := a), Nat.cast_add, Nat.cast_ite, Nat.cast_one, Nat.cast_zero]
      ring

/-- Every observation is tied with the others of its group, so that pairs are counted twice. -/
theorem two_mul_tiedPairs (xs : List ℝ) :
    2 * (tiedPairs xs : ℝ) = (xs.map fun x => (tiesIn xs x : ℝ) - 1).sum := by
  induction xs with
  | nil => simp [tiedPairs, laterPairs]
  | cons a xs ih =>
      rw [tiedPairs_cons, List.map_cons, List.sum_cons, sum_tiesIn_cons, tiesIn_cons, if_pos rfl,
        ← ih]
      push_cast
      ring

/-- **The spread of ties counts pairs and triples** of equal values. -/
theorem tieSpread_eq_pairs (xs : List ℝ) :
    tieSpread xs = 18 * tiedPairs xs + 12 * tiedTriples xs := by
  have hterm (t : ℕ) : tieTerm t = 9 * ((t : ℝ) - 1) + 2 * (((t : ℝ) - 1) * (t - 2)) := by
    rw [tieTerm]
    ring
  simp only [tieSpread_eq_sum, hterm, List.sum_map_add, List.sum_map_mul_left]
  rw [← two_mul_tiedPairs, tiedTriples]
  ring

theorem untiedPairs_eq (xs : List ℝ) :
    untiedPairs xs = xs.length * (xs.length - 1) / 2 - tiedPairs xs := by
  rw [untiedPairs, length_laterPairs, Nat.cast_choose_two]

/-- **What the variance leaves out**: the ties in both variables. -/
theorem concordanceVariance_eq_sub (h : x.length = y.length) (hn : 3 ≤ x.length) :
    concordanceVariance x y = jointVariance x y - jointTies x y := by
  have hn' : (3 : ℝ) ≤ x.length := Nat.ofNat_le_cast.2 hn
  have h0 : (x.length : ℝ) ≠ 0 := by linarith
  have h1 : (x.length : ℝ) - 1 ≠ 0 := by linarith
  have h2 : (x.length : ℝ) - 2 ≠ 0 := by linarith
  rw [concordanceVariance_eq, tieSpread_eq_pairs, tieSpread_eq_pairs, jointVariance, jointTies,
    untiedPairs_eq, untiedPairs_eq, untiedTriples, untiedTriples, ← h, tieTerm]
  field_simp
  ring

theorem untiedTriples_nonneg (hn : 2 ≤ xs.length) : 0 ≤ untiedTriples xs := by
  have hn' : (2 : ℝ) ≤ xs.length := Nat.ofNat_le_cast.2 hn
  have hbound : ∀ x ∈ xs, ((tiesIn xs x : ℝ) - 1) * (tiesIn xs x - 2) ≤
      (xs.length - 1) * (xs.length - 2) := by
    intro x hx
    have hle : (tiesIn xs x : ℝ) ≤ xs.length := Nat.cast_le.2 List.countP_le_length
    have hone : (1 : ℝ) ≤ tiesIn xs x := Nat.one_le_cast.2 (tiesIn_pos hx)
    nlinarith
  have hsum := List.sum_le_card_nsmul _ _ (List.forall_mem_map.2 hbound)
  rw [List.length_map, nsmul_eq_mul] at hsum
  rw [untiedTriples, tiedTriples, sub_nonneg]
  linarith

/-- **With the ties in both variables, the variance is positive** whenever both variables vary. -/
theorem jointVariance_pos (h : x.length = y.length) (hn : 3 ≤ x.length)
    (hx : ∃ a ∈ x, ∃ b ∈ x, a ≠ b) (hy : ∃ a ∈ y, ∃ b ∈ y, a ≠ b) : 0 < jointVariance x y := by
  have hn' : (3 : ℝ) ≤ x.length := Nat.ofNat_le_cast.2 hn
  have hpairs : (0 : ℝ) < x.length * (x.length - 1) := mul_pos (by linarith) (by linarith)
  have htriples : (0 : ℝ) < x.length * (x.length - 1) * (x.length - 2) :=
    mul_pos hpairs (by linarith)
  have hUx := untiedPairs_pos_iff.2 hx
  have hUy := untiedPairs_pos_iff.2 hy
  have hTx : 0 ≤ untiedTriples x := untiedTriples_nonneg (by omega)
  have hTy : 0 ≤ untiedTriples y := untiedTriples_nonneg (by omega)
  rw [jointVariance]
  exact add_pos_of_pos_of_nonneg (by positivity) (by positivity)

end JointTies

/-! ### The test -/

section Test

variable {x y x' y' : List ℝ}

theorem untiedPairs_eq_of_perm {xs xs' : List ℝ} (h : xs'.Perm xs) :
    untiedPairs xs' = untiedPairs xs := by
  rw [untiedPairs_eq, untiedPairs_eq, tiedPairs_eq_of_perm h, h.length_eq]

theorem untiedPairs_map_neg (xs : List ℝ) : untiedPairs (xs.map (-·)) = untiedPairs xs := by
  rw [untiedPairs_eq, untiedPairs_eq, tiedPairs_map_neg, List.length_map]

/-- The number that the score is divided by. -/
noncomputable def tauScale (x y : List ℝ) : ℝ :=
  Real.sqrt (untiedPairs x * untiedPairs y)

/-- **The score is divided by a positive number** exactly if both variables vary. -/
theorem tauScale_pos_iff : 0 < tauScale x y ↔ ¬ (Tied x ∨ Tied y) := by
  rw [tauScale, Real.sqrt_pos, not_or, not_tied_iff, not_tied_iff, ← untiedPairs_pos_iff,
    ← untiedPairs_pos_iff]
  constructor
  · intro hpos
    exact ⟨(untiedPairs_nonneg x).lt_of_ne' (left_ne_zero_of_mul hpos.ne'),
      (untiedPairs_nonneg y).lt_of_ne' (right_ne_zero_of_mul hpos.ne')⟩
  · rintro ⟨hx, hy⟩
    exact mul_pos hx hy

/-- The score of the test: concordant pairs less discordant ones. -/
noncomputable def tauScore (x y : List ℝ) : ℝ :=
  concordantPairs x y - discordantPairs x y

/-- **The score is at most the number that it is divided by**, in either direction. -/
theorem abs_tauScore_le (h : x.length = y.length) : |tauScore x y| ≤ tauScale x y := by
  have hsquare := square_score_le h
  rw [square_eq, ← sq] at hsquare
  exact Real.abs_le_sqrt hsquare

variable [Tails ℝ]

/-- The p-value of the test, before it is clamped: that of a normal approximation as long as its
variance is positive. -/
noncomputable def concordancePValue (x y : List ℝ) : ℝ :=
  if concordanceVariance x y ≤ 0 then 1
  else Tails.normalTwoSided (tauScore x y / Real.sqrt (concordanceVariance x y))

/-- The test of orders of enough aligned observations. -/
theorem kendallTau_eq (h : x.length = y.length) (hn : 3 ≤ x.length) : kendallTau x y =
    if tauScale x y ≤ 0 then .error (.degenerate .constantVariable)
    else .ok (.clamped (tauScore x y / tauScale x y) (concordancePValue x y) none) := by
  have hpairs (xs : List ℝ) (hxs : xs.length = x.length) :
      (ofNat (x.length * (x.length - 1) / 2) : ℝ) - ofNat (tiedPairs xs) = untiedPairs xs := by
    rw [ofNat_eq, ofNat_eq, untiedPairs, length_laterPairs, Nat.choose_two_right, hxs]
  rw [kendallTau, (requireAligned_eq_ok_iff x y).2 h, ok_bind, (require_eq_ok_iff x 3).2 hn,
    ok_bind, concordance_eq h]
  dsimp only
  rw [hpairs x rfl, hpairs y h.symm, sqrt_eq, sqrt_eq, numeral_zero, numeral_one]
  change (if tauScale x y ≤ 0 then _ else _) = _
  split <;> rfl

/-- Exchanging the variables changes nothing. -/
theorem kendallTau_comm (h : x.length = y.length) (hn : 3 ≤ x.length) :
    kendallTau y x = kendallTau x y := by
  have hscale : tauScale y x = tauScale x y := by rw [tauScale, mul_comm, tauScale]
  have hscore : tauScore y x = tauScore x y := by
    rw [tauScore, concordantPairs_comm, discordantPairs_comm, tauScore]
  have hp : concordancePValue y x = concordancePValue x y := by
    rw [concordancePValue, concordanceVariance_comm h, hscore, concordancePValue]
  rw [kendallTau_eq h.symm (h ▸ hn), kendallTau_eq h hn, hscale, hscore, hp]

/-- Reflecting one variable changes the sign of the statistic and nothing else. -/
theorem kendallTau_map_neg (h : x.length = y.length) (hn : 3 ≤ x.length) :
    kendallTau x (y.map (-·)) =
      (kendallTau x y).map fun out => { out with statistic := -out.statistic } := by
  have hscale : tauScale x (y.map (-·)) = tauScale x y := by
    rw [tauScale, untiedPairs_map_neg, tauScale]
  have hscore : tauScore x (y.map (-·)) = -tauScore x y := by
    rw [tauScore, concordantPairs_map_neg, discordantPairs_map_neg, tauScore, neg_sub]
  have hp : concordancePValue x (y.map (-·)) = concordancePValue x y := by
    rw [concordancePValue, concordanceVariance_map_neg, hscore, neg_div, normalTwoSided_neg,
      concordancePValue]
  rw [kendallTau_eq (by rw [h, List.length_map]) hn, kendallTau_eq h hn, hscale, hscore, hp,
    neg_div]
  split <;> rfl

/-- The order of the observations does not matter. -/
theorem kendallTau_perm (h : x.length = y.length) (hn : 3 ≤ x.length)
    (h' : x'.length = y'.length) (hperm : (x'.zip y').Perm (x.zip y)) :
    kendallTau x' y' = kendallTau x y := by
  have hx : x'.Perm x := by
    have hfst := hperm.map Prod.fst
    rwa [List.map_fst_zip h'.le, List.map_fst_zip h.le] at hfst
  have hy : y'.Perm y := by
    have hsnd := hperm.map Prod.snd
    rwa [List.map_snd_zip h'.ge, List.map_snd_zip h.ge] at hsnd
  have hscale : tauScale x' y' = tauScale x y := by
    rw [tauScale, untiedPairs_eq_of_perm hx, untiedPairs_eq_of_perm hy, tauScale]
  have hscore : tauScore x' y' = tauScore x y := by
    rw [tauScore, concordantPairs_eq_of_perm hperm, discordantPairs_eq_of_perm hperm, tauScore]
  have hp : concordancePValue x' y' = concordancePValue x y := by
    rw [concordancePValue, concordanceVariance_eq_of_perm hx hy, hscore, concordancePValue]
  rw [kendallTau_eq h' (hx.length_eq ▸ hn), kendallTau_eq h hn, hscale, hscore, hp]

/-- **The test of orders is bounded and symmetric.**  It is degenerate exactly if a variable is
constant.  Its score counts concordant less discordant pairs, and its square is at most the product
of the numbers of untied pairs, so that the statistic lies between minus one and one.  Exchanging
the variables or reordering the observations changes nothing, and reflecting one variable changes
only the sign of the statistic. -/
theorem kendallTau_bounds_and_symmetries (h : x.length = y.length) (hn : 3 ≤ x.length) :
    (concordance x y).score = concordantPairs x y - discordantPairs x y ∧
      let c := concordance x y
      let pairs : ℝ := x.length * (x.length - 1) / 2
      c.score ^ 2 ≤ (pairs - c.tiedX) * (pairs - c.tiedY) ∧
      ((∃ cause, kendallTau x y = .error (.degenerate cause)) ↔ Tied x ∨ Tied y) ∧
      (¬ (Tied x ∨ Tied y) → ∃ out, kendallTau x y = .ok out ∧
        out.statistic = c.score / Real.sqrt ((pairs - c.tiedX) * (pairs - c.tiedY)) ∧
        out.statistic ∈ Set.Icc (-1) 1) ∧
      kendallTau y x = kendallTau x y ∧
      kendallTau x (y.map (-·)) =
        (kendallTau x y).map (fun out => { out with statistic := -out.statistic }) ∧
      ∀ x' y' : List ℝ, x'.length = y'.length → (x'.zip y').Perm (x.zip y) →
        kendallTau x' y' = kendallTau x y := by
  have hpairsx := untiedPairs_eq x
  have hpairsy := untiedPairs_eq y
  rw [← h] at hpairsy
  have hdegenerate := degenerateIff_of_eq (kendallTau_eq h hn) tauScale_pos_iff
  rw [concordance_eq h]
  refine ⟨rfl, ?_⟩
  intro c pairs
  refine ⟨?_, hdegenerate.degenerate_iff, fun hvaries => ?_, kendallTau_comm h hn,
    kendallTau_map_neg h hn, fun _ _ h' hperm => kendallTau_perm h hn h' hperm⟩
  · have hsquare := square_score_le h
    rwa [hpairsx, hpairsy, square_eq, ← sq] at hsquare
  · have hpos := tauScale_pos_iff.2 hvaries
    refine ⟨_, (kendallTau_eq h hn).trans (if_neg hpos.not_ge), ?_, ?_⟩
    · change tauScore x y / tauScale x y = _
      rw [tauScale, hpairsx, hpairsy]
      rfl
    · change tauScore x y / tauScale x y ∈ _
      rw [Set.mem_Icc, ← abs_le, abs_div, abs_of_pos hpos, div_le_one hpos]
      exact abs_tauScore_le h

omit [Tails ℝ] in
/-- Of six pairs three are concordant and one is discordant; either variable ties one of the
others. -/
theorem kendallTau_of_six_pairs :
    let _tails := densityTails
    let x : List ℝ := [1, 2, 2, 4]
    let y : List ℝ := [2, 1, 3, 3]
    ∃ out, kendallTau x y = .ok out ∧ out.statistic = 2 / 5 ∧ kendallTau y x = .ok out ∧
      kendallTau x (y.map (-·)) = .ok { out with statistic := -(2 / 5) } ∧
      kendallTau x.reverse y.reverse = .ok out := by
  intro _tails x y
  have hx : ¬ Tied x := not_tied_iff.2 ⟨1, by simp [x], 2, by simp [x], by norm_num⟩
  have hy : ¬ Tied y := not_tied_iff.2 ⟨2, by simp [y], 1, by simp [y], by norm_num⟩
  have hcounts : concordance x y = ⟨2, 1, 1⟩ := by
    rw [concordance_eq (x := x) (y := y) rfl]
    norm_num [x, y, concordantPairs, discordantPairs, tiedPairs, laterPairs, agreement,
      List.countP_cons]
  obtain ⟨-, -, -, hdefined, hswap, hneg, hperm⟩ :=
    kendallTau_bounds_and_symmetries (x := x) (y := y) rfl (by simp [x])
  obtain ⟨out, hout, hstatistic, -⟩ := hdefined (not_or.2 ⟨hx, hy⟩)
  have htwo : out.statistic = 2 / 5 := by
    rw [hstatistic, hcounts]
    norm_num [x]
  refine ⟨out, hout, htwo, hswap.trans hout, ?_, ?_⟩
  · rw [hneg, hout, ← htwo]
    rfl
  · exact (hperm x.reverse y.reverse rfl (List.reverse_perm (x.zip y))).trans hout

end Test

/-! ### One observation apart from tied ones -/

section Outlier

variable {a b c d : ℝ} {m : ℕ}

theorem tiesIn_outlier (h : b ≠ a) : tiesIn (List.replicate m a) b = 0 := by
  refine List.countP_eq_zero.2 fun y hy => ?_
  rw [List.eq_of_mem_replicate hy]
  simpa using h.symm

/-- All values but one are tied with each other. -/
theorem tieSpread_outlier (h : b ≠ a) : tieSpread (b :: List.replicate m a) = m * tieTerm m := by
  have htied : ∀ x ∈ List.replicate m a,
      tieTerm (tiesIn (b :: List.replicate m a) x) = tieTerm m := by
    intro x hx
    rw [List.eq_of_mem_replicate hx, tiesIn_cons, if_neg h, add_zero]
    congr 1
    exact (List.countP_eq_length.2 (by simp)).trans List.length_replicate
  rw [tieSpread_eq_sum, List.map_cons, List.sum_cons, tiesIn_cons, tiesIn_outlier h, if_pos rfl,
    List.map_congr_left htied, List.map_const', List.sum_replicate, List.length_replicate,
    nsmul_eq_mul, zero_add, tieTerm]
  simp

theorem untiedPairs_outlier (h : b ≠ a) : untiedPairs (b :: List.replicate m a) = m := by
  have htied : tiedPairs (List.replicate m a) = m.choose 2 := by
    have hall : (List.replicate m a).Pairwise (· = ·) := List.pairwise_replicate_of_refl
    rw [tiedPairs, List.countP_eq_length.2, length_laterPairs, List.length_replicate]
    intro p hp
    exact decide_eq_true (forall_mem_laterPairs.2 hall p hp)
  rw [untiedPairs_eq, tiedPairs_cons, tiesIn_outlier h, htied, zero_add, Nat.cast_choose_two,
    List.length_cons, List.length_replicate]
  push_cast
  ring

/-- The pairs with the observation apart are concordant, and the others are tied. -/
theorem tauScore_outlier (h : 0 < (b - a) * (d - c)) :
    tauScore (b :: List.replicate m a) (d :: List.replicate m c) = m := by
  have hapart : ∀ q ∈ List.replicate m (a, c), 0 < agreement ((b, d), q) := by
    intro q hq
    rw [List.eq_of_mem_replicate hq]
    exact h
  have hothers : ∀ p ∈ laterPairs (List.replicate m (a, c)), agreement p = 0 := by
    intro p hp
    have hall : (List.replicate m (a, c)).Pairwise (· = ·) := List.pairwise_replicate_of_refl
    rw [agreement, forall_mem_laterPairs.2 hall p hp, sub_self, zero_mul]
  have hpairs : laterPairs ((b :: List.replicate m a).zip (d :: List.replicate m c)) =
      (List.replicate m (a, c)).map ((b, d), ·) ++ laterPairs (List.replicate m (a, c)) := by
    rw [List.zip_cons_cons, List.zip_replicate', laterPairs]
  have hconcordant : concordantPairs (b :: List.replicate m a) (d :: List.replicate m c) = m := by
    have hall := List.countP_eq_length.2 fun q hq => decide_eq_true (hapart q hq)
    have hnone : (laterPairs (List.replicate m (a, c))).countP
        (fun p => decide (0 < agreement p)) = 0 :=
      List.countP_eq_zero.2 fun p hp => by simp [hothers p hp]
    rw [concordantPairs, hpairs, List.countP_append, List.countP_map, hnone, add_zero]
    exact hall.trans List.length_replicate
  have hdiscordant : discordantPairs (b :: List.replicate m a) (d :: List.replicate m c) = 0 := by
    rw [discordantPairs, hpairs, List.countP_eq_zero]
    intro p hp
    rcases List.mem_append.1 hp with hp | hp
    · obtain ⟨q, hq, rfl⟩ := List.mem_map.1 hp
      simpa using (hapart q hq).le
    · simp [hothers p hp]
  rw [tauScore, hconcordant, hdiscordant, Nat.cast_zero, sub_zero]

/-- **One observation apart from at least four tied ones** in both variables is a perfect
association, of which the test says that it is certain to be due to chance. -/
theorem kendallTau_outlier [Tails ℝ] (hm : 4 ≤ m) (h : 0 < (b - a) * (d - c)) :
    kendallTau (b :: List.replicate m a) (d :: List.replicate m c) = .ok ⟨1, 1, none⟩ := by
  have hm' : (4 : ℝ) ≤ m := Nat.ofNat_le_cast.2 hm
  have hb : b ≠ a := by
    rintro rfl
    simp at h
  have hd : d ≠ c := by
    rintro rfl
    simp at h
  have hscale : tauScale (b :: List.replicate m a) (d :: List.replicate m c) = m := by
    rw [tauScale, untiedPairs_outlier hb, untiedPairs_outlier hd,
      Real.sqrt_mul_self (by positivity)]
  have hv : concordanceVariance (b :: List.replicate m a) (d :: List.replicate m c) ≤ 0 := by
    rw [concordanceVariance_eq, tieSpread_outlier hb, tieSpread_outlier hd, List.length_cons,
      List.length_replicate, tieTerm, tieTerm]
    have hfactor : (((m + 1 : ℕ) : ℝ) * (((m + 1 : ℕ) - 1) * (2 * (m + 1 : ℕ) + 5)) -
        m * ((m - 1) * (2 * m + 5)) - m * ((m - 1) * (2 * m + 5))) / 18 =
          m * (17 + 3 * m - 2 * m * m) / 18 := by
      push_cast
      ring
    have hsquare : 4 * (m : ℝ) ≤ m * m := mul_le_mul_of_nonneg_right hm' (by linarith)
    rw [hfactor]
    exact div_nonpos_of_nonpos_of_nonneg
      (mul_nonpos_of_nonneg_of_nonpos (by linarith) (by linarith)) (by norm_num)
  rw [kendallTau_eq (by simp) (by simp; omega), hscale, tauScore_outlier h, concordancePValue,
    if_pos hv, if_neg (by linarith), div_self (by positivity)]
  simp [TestOutput.clamped, clamp]

end Outlier

/-! ### Where the p-value comes from -/

section PValue

variable {x y : List ℝ}

variable [Tails ℝ]

/-- As long as the variance is positive, an association is not certain to be due to chance. -/
theorem concordancePValue_lt_one (htails : ∀ z : ℝ, 0 < z → Tails.normal z < 1 / 2)
    (hv : 0 < concordanceVariance x y) (hscore : tauScore x y ≠ 0) :
    concordancePValue x y < 1 := by
  rw [concordancePValue, if_neg hv.not_ge]
  exact normalTwoSided_lt_one htails (div_ne_zero hscore (Real.sqrt_pos.2 hv).ne')

/-- **Where the p-value of the test of orders comes from.**  For two variables that vary, it is that
of a normal approximation exactly if the spreads of ties leave the variance positive, and one
otherwise.  One variable without ties leaves the variance positive, and so do groups of equal values
that hold at most two thirds of the observations; then no perfect association has the p-value one.
What the variance lacks to a positive number is the part that is due to ties in both variables. -/
theorem kendallTau_pValue_of_varying (h : x.length = y.length) (hn : 3 ≤ x.length)
    (hx : ¬ Tied x) (hy : ¬ Tied y) :
    let n : ℝ := x.length
    let v := concordanceVariance x y
    (0 < v ↔ tieSpread x + tieSpread y < n * (n - 1) * (2 * n + 5)) ∧
      (x.Nodup ∨ y.Nodup → 0 < v) ∧
      ((∀ a ∈ x, 3 * tiesIn x a ≤ 2 * x.length) → (∀ b ∈ y, 3 * tiesIn y b ≤ 2 * y.length) →
        0 < v) ∧
      v = jointVariance x y - jointTies x y ∧ 0 < jointVariance x y ∧
      ∃ out, kendallTau x y = .ok out ∧
        (¬ 0 < v → out.pValue = 1) ∧
        (0 < v → out.pValue =
          clamp 0 1 (Tails.normalTwoSided ((concordance x y).score / Real.sqrt v))) ∧
        ((∀ z : ℝ, 0 < z → Tails.normal z < 1 / 2) → 0 < v → |out.statistic| = 1 →
          out.pValue < 1) := by
  intro n v
  have hne : x ≠ [] := List.ne_nil_of_length_pos (by omega)
  have hscale := tauScale_pos_iff.2 (not_or.2 ⟨hx, hy⟩)
  have hout := (kendallTau_eq h hn).trans (if_neg hscale.not_ge)
  have hscore : (concordance x y).score = tauScore x y := by rw [concordance_eq h, tauScore]
  have hbound : n * (n - 1) * (2 * n + 5) = n * tieTerm x.length := by rw [tieTerm, mul_assoc]
  have hp : v ≤ 0 → concordancePValue x y = 1 := fun hv => if_pos hv
  have hp' : 0 < v → concordancePValue x y = Tails.normalTwoSided (tauScore x y / Real.sqrt v) :=
    fun hv => if_neg hv.not_ge
  refine ⟨hbound ▸ concordanceVariance_pos_iff,
    concordanceVariance_pos_of_nodup h (not_tied_iff.1 hx) (not_tied_iff.1 hy),
    concordanceVariance_pos_of_share h hne, concordanceVariance_eq_sub h hn,
    jointVariance_pos h hn (not_tied_iff.1 hx) (not_tied_iff.1 hy), _, hout, ?_, ?_, ?_⟩
  · intro hv
    rw [TestOutput.clamped, hp (not_lt.1 hv)]
    simp [clamp]
  · intro hv
    rw [TestOutput.clamped, hp' hv, hscore, numeral_zero, numeral_one]
  · intro htails hv hperfect
    have hne : tauScore x y ≠ 0 := by
      intro hzero
      rw [TestOutput.clamped, hzero, zero_div, abs_zero] at hperfect
      exact zero_ne_one hperfect
    rw [TestOutput.clamped, numeral_zero, numeral_one]
    exact clamp_lt_one (concordancePValue_lt_one htails hv hne)

omit [Tails ℝ] in
/-- Two of three observations that are tied in both variables leave a variance of 5 / 3. -/
theorem kendallTau_pValue_of_two_thirds_tied :
    let _tails := densityTails
    let x : List ℝ := [1, 2, 2]
    ¬ x.Nodup ∧ concordanceVariance x x = 5 / 3 ∧
      ∃ out, kendallTau x x = .ok out ∧ out.statistic = 1 ∧
        out.pValue = clamp 0 1 (Tails.normalTwoSided (2 / Real.sqrt (5 / 3))) := by
  intro _tails x
  have hx : ¬ Tied x := not_tied_iff.2 ⟨1, by simp [x], 2, by simp [x], by norm_num⟩
  have hties : ∀ a ∈ x, 3 * tiesIn x a ≤ 2 * x.length := by
    norm_num [x, tiesIn, List.countP_cons]
  have hscore : tauScore x x = 2 := by
    norm_num [x, tauScore, concordantPairs, discordantPairs, laterPairs, agreement,
      List.countP_cons]
  have hscale : tauScale x x = 2 := by
    have hpairs : untiedPairs x = 2 := by
      norm_num [x, untiedPairs, tiedPairs, laterPairs, List.countP_cons]
    rw [tauScale, hpairs, Real.sqrt_mul_self two_pos.le]
  have hv : concordanceVariance x x = 5 / 3 := by
    rw [concordanceVariance_eq, tieSpread_eq_sum]
    norm_num [x, tieTerm, tiesIn, List.countP_cons]
  obtain ⟨-, -, hshare, -, -, out, hout, -, hp, -⟩ :=
    kendallTau_pValue_of_varying (x := x) (y := x) rfl (by simp [x]) hx hx
  have hstatistic : out.statistic = 1 := by
    rw [kendallTau_eq (x := x) (y := x) rfl (by simp [x]), hscale, hscore,
      if_neg (by norm_num)] at hout
    obtain rfl := Except.ok.inj hout
    exact div_self two_ne_zero
  refine ⟨by simp [x], hv, out, hout, hstatistic, ?_⟩
  rw [hp (hshare hties hties), hv, concordance_eq (x := x) (y := x) rfl]
  exact congrArg (fun s => clamp 0 1 (Tails.normalTwoSided (s / Real.sqrt (5 / 3)))) hscore

omit [Tails ℝ] in
/-- Of five observations, four are tied in both variables.  The association is perfect, neither
variable is constant, and the variance is negative, although it is 4 with the ties in both
variables. -/
theorem kendallTau_of_four_tied :
    let _tails := densityTails
    let x : List ℝ := [1, 0, 0, 0, 0]
    ¬ Tied x ∧ concordanceVariance x x = -(2 / 3) ∧ jointVariance x x = 4 ∧
      kendallTau x x = .ok ⟨1, 1, none⟩ := by
  intro _tails x
  refine ⟨not_tied_iff.2 ⟨1, by simp [x], 0, by simp [x], by norm_num⟩, ?_, ?_, ?_⟩
  · have hspread : tieSpread x = (4 : ℕ) * tieTerm 4 :=
      tieSpread_outlier (m := 4) (b := 1) (a := 0) one_ne_zero
    rw [concordanceVariance_eq, hspread]
    norm_num [x, tieTerm]
  · have hpairs : untiedPairs x = (4 : ℕ) :=
      untiedPairs_outlier (m := 4) (b := 1) (a := 0) one_ne_zero
    rw [jointVariance, hpairs]
    norm_num [x, untiedTriples, tiedTriples, tiesIn, List.countP_cons]
  · exact kendallTau_outlier (m := 4) (le_refl 4) (by norm_num)

end PValue

end StudyAnalysis.Exact
