/-
**Concordance counts pairs.**

The test of orders runs through all pairs of observations and adds up products of signs.  In exact
arithmetic its score is the number of concordant pairs, which are ordered alike by both variables,
less the number of discordant ones, which are ordered oppositely.  A pair that one variable ties is
neither.  By the inequality of Cauchy and Schwarz for the signs, the square of the score is at most
the product of the numbers of pairs that either variable leaves untied.

Which of two observations comes first does not matter to any of these numbers, and therefore neither
does the order in which the observations are listed.

Main definitions:

* `StudyAnalysis.Exact.concordantPairs`, `StudyAnalysis.Exact.discordantPairs` — the pairs that both
  variables order alike, and oppositely;
* `StudyAnalysis.Exact.tiedPairs` — the pairs of equal values.

Main results:

* `StudyAnalysis.Exact.map_laterPairs_perm` — the pairs of a reordered list are reordered pairs;
* `StudyAnalysis.Exact.concordance_eq` — **the score counts concordant and discordant pairs**;
* `StudyAnalysis.Exact.square_score_le` — **the score is bounded by the untied pairs**;
* `StudyAnalysis.Exact.untiedPairs_pos_iff` — a variable ties all pairs exactly if it is constant.
-/

import StudyAnalysis.Proofs.Statistics.OrderInvariance
import StudyAnalysis.Proofs.Statistics.SumsOfSquares
import StudyAnalysis.Statistics.Correlation

set_option autoImplicit false
set_option relaxedAutoImplicit false

namespace StudyAnalysis.Exact

open Numeric

/-! ### The pairs of a list -/

section Pairs

variable {β γ : Type} {bs cs : List β}

theorem length_laterPairs (bs : List β) : (laterPairs bs).length = bs.length.choose 2 := by
  induction bs with
  | nil => rfl
  | cons b bs ih =>
      rw [laterPairs, List.length_append, List.length_map, ih, List.length_cons,
        Nat.choose_succ_succ', Nat.choose_one_right]

/-- A relation holds of all pairs exactly if it holds of every element and each later one. -/
theorem forall_mem_laterPairs {r : β → β → Prop} :
    (∀ p ∈ laterPairs bs, r p.1 p.2) ↔ bs.Pairwise r := by
  induction bs with
  | nil => simp [laterPairs]
  | cons b bs ih =>
      rw [laterPairs, List.forall_mem_append, List.forall_mem_map, List.pairwise_cons, ih]

/-- **The pairs of a reordered list are reordered pairs**, as far as it does not matter which element
of a pair comes first. -/
theorem map_laterPairs_perm {f : β × β → γ} (hf : ∀ p, f p.swap = f p) (h : bs.Perm cs) :
    ((laterPairs bs).map f).Perm ((laterPairs cs).map f) := by
  induction h with
  | nil => exact .refl _
  | cons b h ih =>
      rw [laterPairs, laterPairs, List.map_append, List.map_append]
      exact ((h.map _).map f).append ih
  | swap a b bs =>
      simp only [laterPairs, List.map_cons, List.map_append, List.cons_append]
      rw [show f (b, a) = f (a, b) from hf (a, b)]
      exact (List.perm_append_comm_assoc _ _ _).cons _
  | trans _ _ ih ih' => exact ih.trans ih'

/-- So they are counted alike. -/
theorem countP_laterPairs_perm {q : β × β → Bool} (hq : ∀ p, q p.swap = q p) (h : bs.Perm cs) :
    (laterPairs bs).countP q = (laterPairs cs).countP q := by
  have hcount (ds : List β) : (laterPairs ds).countP q = ((laterPairs ds).map q).countP id := by
    rw [List.countP_map]
    rfl
  rw [hcount, hcount, (map_laterPairs_perm hq h).countP_eq]

end Pairs

/-! ### Sums of signs -/

section Signs

variable {β : Type} (f : β → ℝ) (bs : List β)

/-- **The inequality of Cauchy and Schwarz** for a list of pairs of numbers. -/
theorem square_sum_mul_le (ps : List (ℝ × ℝ)) : square (ps.map fun p => p.1 * p.2).sum ≤
    (ps.map fun p => square p.1).sum * (ps.map fun p => square p.2).sum := by
  have hsum (g : ℝ × ℝ → ℝ) : (ps.map g).sum = ∑ i : Fin ps.length, g ps[i] :=
    (Fin.sum_univ_fun_getElem ps g).symm
  rw [hsum, hsum, hsum]
  simp only [square_eq, ← sq]
  exact Finset.sum_mul_sq_le_sq_mul_sq _ _ _

/-- Signs add up to the number of positive terms less that of negative ones. -/
theorem sum_map_sign : (bs.map fun b => (SignType.sign (f b) : ℝ)).sum =
    bs.countP (fun b => decide (0 < f b)) - bs.countP (fun b => decide (f b < 0)) := by
  induction bs with
  | nil => simp
  | cons b bs ih =>
      simp only [List.map_cons, List.sum_cons, ih, List.countP_cons, decide_eq_true_eq, Nat.cast_add,
        Nat.cast_ite, Nat.cast_one, Nat.cast_zero]
      rcases lt_trichotomy (f b) 0 with hneg | hzero | hpos
      · simp only [sign_neg hneg, if_neg hneg.asymm, if_pos hneg, SignType.coe_neg_one]
        ring
      · simp only [hzero, sign_zero, lt_irrefl, if_false, SignType.coe_zero]
        ring
      · simp only [sign_pos hpos, if_pos hpos, if_neg hpos.asymm, SignType.coe_one]
        ring

/-- The squares of signs count the terms that are not zero. -/
theorem sum_map_square_sign : (bs.map fun b => square (SignType.sign (f b) : ℝ)).sum =
    bs.length - bs.countP (fun b => decide (f b = 0)) := by
  induction bs with
  | nil => simp
  | cons b bs ih =>
      simp only [List.map_cons, List.sum_cons, ih, List.countP_cons, List.length_cons,
        decide_eq_true_eq, Nat.cast_add, Nat.cast_ite, Nat.cast_one, Nat.cast_zero]
      rw [square_eq]
      rcases lt_trichotomy (f b) 0 with hneg | hzero | hpos
      · simp only [sign_neg hneg, if_neg hneg.ne, SignType.coe_neg_one]
        ring
      · simp only [hzero, sign_zero, if_true, SignType.coe_zero]
        ring
      · simp only [sign_pos hpos, if_neg hpos.ne', SignType.coe_one]
        ring

end Signs

/-! ### Concordant and discordant pairs -/

section Counts

/-- The product of the differences of two observations in either variable: positive if the variables
order them alike, negative if they order them oppositely, and zero if one variable ties them. -/
noncomputable def agreement (p : (ℝ × ℝ) × (ℝ × ℝ)) : ℝ :=
  (p.1.1 - p.2.1) * (p.1.2 - p.2.2)

/-- The number of pairs of observations that both variables order alike. -/
noncomputable def concordantPairs (x y : List ℝ) : ℕ :=
  (laterPairs (x.zip y)).countP fun p => decide (0 < agreement p)

/-- The number of pairs of observations that the two variables order oppositely. -/
noncomputable def discordantPairs (x y : List ℝ) : ℕ :=
  (laterPairs (x.zip y)).countP fun p => decide (agreement p < 0)

/-- The number of pairs of equal values. -/
noncomputable def tiedPairs (xs : List ℝ) : ℕ :=
  (laterPairs xs).countP fun p => decide (p.1 = p.2)

/-- The number of pairs of different values. -/
noncomputable def untiedPairs (xs : List ℝ) : ℝ :=
  (laterPairs xs).length - tiedPairs xs

variable {x y x' y' : List ℝ}

theorem agreement_swap (p : (ℝ × ℝ) × (ℝ × ℝ)) : agreement p.swap = agreement p := by
  rw [agreement, agreement, Prod.fst_swap, Prod.snd_swap]
  ring

/-- The computed direction is the sign of the difference. -/
theorem direction_eq (a b : ℝ) : direction a b = SignType.sign (a - b) := by
  have hsignum : signum (a - b) = if a - b < 0 then -1 else 1 := rfl
  rw [direction, hsignum, numeral_zero, numeral_one]
  rcases lt_trichotomy a b with hlt | rfl | hgt
  · rw [if_pos (sub_neg.2 hlt), if_neg (by simpa using hlt.ne), sign_neg (sub_neg.2 hlt)]
    simp
  · rw [sub_self, if_pos (beq_self_eq_true a)]
    simp
  · rw [if_neg (sub_pos.2 hgt).asymm, if_neg (by simpa using hgt.ne'), sign_pos (sub_pos.2 hgt)]
    simp

/-- The pairs of the first variable. -/
theorem laterPairs_fst (h : x.length = y.length) :
    (laterPairs (x.zip y)).map (Prod.map Prod.fst Prod.fst) = laterPairs x := by
  rw [← laterPairs_map, List.map_fst_zip h.le]

/-- The pairs of the second variable. -/
theorem laterPairs_snd (h : x.length = y.length) :
    (laterPairs (x.zip y)).map (Prod.map Prod.snd Prod.snd) = laterPairs y := by
  rw [← laterPairs_map, List.map_snd_zip h.ge]

/-- Only equal values have no direction. -/
theorem direction_eq_zero_iff {a b : ℝ} : direction a b = 0 ↔ a = b := by
  rw [direction_eq, ← sub_eq_zero (a := a)]
  rcases lt_trichotomy (a - b) 0 with hneg | hzero | hpos
  · simp [sign_neg hneg, hneg.ne]
  · simp [hzero]
  · simp [sign_pos hpos, hpos.ne']

theorem countP_direction (xs : List ℝ) :
    (laterPairs xs).countP (fun p => direction p.1 p.2 == (0 : ℝ)) = tiedPairs xs := by
  refine List.countP_congr fun p _ => ?_
  rw [beq_iff_eq, direction_eq_zero_iff, decide_eq_true_iff]

/-- **The score counts pairs**: concordant ones less discordant ones. -/
theorem concordance_eq (h : x.length = y.length) : concordance x y =
    ⟨concordantPairs x y - discordantPairs x y, tiedPairs x, tiedPairs y⟩ := by
  have hscore : (laterPairs (x.zip y)).map (fun p =>
      (direction p.1.1 p.2.1 : ℝ) * direction p.1.2 p.2.2) =
        (laterPairs (x.zip y)).map fun p => (SignType.sign (agreement p) : ℝ) := by
    refine List.map_congr_left fun p _ => ?_
    rw [direction_eq, direction_eq, agreement, sign_mul, SignType.coe_mul]
  rw [concordance, foldl_add_eq, List.map_map, List.countP_map, List.countP_map]
  congr 1
  · rw [numeral_zero, zero_add]
    exact (congrArg List.sum hscore).trans (sum_map_sign agreement _)
  · rw [← countP_direction, ← laterPairs_fst h, List.countP_map, numeral_zero]
    rfl
  · rw [← countP_direction, ← laterPairs_snd h, List.countP_map, numeral_zero]
    rfl

theorem sum_map_square_direction (xs : List ℝ) :
    ((laterPairs xs).map fun p => square (SignType.sign (p.1 - p.2) : ℝ)).sum = untiedPairs xs := by
  rw [sum_map_square_sign, untiedPairs, tiedPairs]
  simp only [sub_eq_zero]

/-- **The score is bounded by the untied pairs** of the two variables. -/
theorem square_score_le (h : x.length = y.length) :
    square (concordantPairs x y - discordantPairs x y : ℝ) ≤ untiedPairs x * untiedPairs y := by
  have hsigns := square_sum_mul_le ((laterPairs (x.zip y)).map fun p =>
    ((SignType.sign (p.1.1 - p.2.1) : ℝ), (SignType.sign (p.1.2 - p.2.2) : ℝ)))
  simp only [List.map_map, Function.comp_def, ← SignType.coe_mul, ← sign_mul] at hsigns
  rw [← sum_map_square_direction, ← sum_map_square_direction, ← laterPairs_fst h,
    ← laterPairs_snd h, List.map_map, List.map_map, concordantPairs, discordantPairs, ← sum_map_sign]
  exact hsigns

theorem untiedPairs_nonneg (xs : List ℝ) : 0 ≤ untiedPairs xs :=
  sub_nonneg.2 (Nat.cast_le.2 List.countP_le_length)

/-- **A variable ties all pairs exactly if it is constant.** -/
theorem untiedPairs_pos_iff {xs : List ℝ} :
    0 < untiedPairs xs ↔ ∃ a ∈ xs, ∃ b ∈ xs, a ≠ b := by
  have hall : xs.Pairwise (· = ·) ↔ ∀ a ∈ xs, ∀ b ∈ xs, a = b :=
    ⟨List.Pairwise.forall_of_forall fun _ _ => rfl, List.pairwise_of_forall_mem_list⟩
  have hzero : untiedPairs xs = 0 ↔ ∀ a ∈ xs, ∀ b ∈ xs, a = b := by
    rw [← hall, ← forall_mem_laterPairs, untiedPairs, sub_eq_zero, Nat.cast_inj, eq_comm, tiedPairs,
      List.countP_eq_length]
    simp only [decide_eq_true_eq]
  rw [(untiedPairs_nonneg xs).lt_iff_ne', ne_eq, hzero]
  push Not
  rfl

/-! ### What does not matter -/

theorem tiedPairs_eq_of_perm {xs xs' : List ℝ} (h : xs'.Perm xs) : tiedPairs xs' = tiedPairs xs :=
  countP_laterPairs_perm (fun p => by simp only [Prod.fst_swap, Prod.snd_swap, eq_comm]) h

theorem concordantPairs_eq_of_perm (h : (x'.zip y').Perm (x.zip y)) :
    concordantPairs x' y' = concordantPairs x y :=
  countP_laterPairs_perm (fun p => by rw [agreement_swap]) h

theorem discordantPairs_eq_of_perm (h : (x'.zip y').Perm (x.zip y)) :
    discordantPairs x' y' = discordantPairs x y :=
  countP_laterPairs_perm (fun p => by rw [agreement_swap]) h

/-- A pair is in the same order whichever variable comes first. -/
theorem agreement_map_swap (p : (ℝ × ℝ) × (ℝ × ℝ)) :
    agreement (Prod.map Prod.swap Prod.swap p) = agreement p :=
  mul_comm _ _

theorem concordantPairs_comm (x y : List ℝ) : concordantPairs y x = concordantPairs x y := by
  rw [concordantPairs, ← List.zip_swap, laterPairs_map, List.countP_map]
  simp only [Function.comp_def, agreement_map_swap]
  rfl

theorem discordantPairs_comm (x y : List ℝ) : discordantPairs y x = discordantPairs x y := by
  rw [discordantPairs, ← List.zip_swap, laterPairs_map, List.countP_map]
  simp only [Function.comp_def, agreement_map_swap]
  rfl

/-- Reflecting one variable turns the order of a pair around. -/
theorem agreement_map_neg (p : (ℝ × ℝ) × (ℝ × ℝ)) :
    agreement (Prod.map (Prod.map id (-·)) (Prod.map id (-·)) p) = -agreement p := by
  simp only [agreement, Prod.map_fst, Prod.map_snd, id]
  ring

theorem concordantPairs_map_neg (x y : List ℝ) :
    concordantPairs x (y.map (-·)) = discordantPairs x y := by
  rw [concordantPairs, List.zip_map_right, laterPairs_map, List.countP_map]
  simp only [Function.comp_def, agreement_map_neg, Left.neg_pos_iff]
  rfl

theorem discordantPairs_map_neg (x y : List ℝ) :
    discordantPairs x (y.map (-·)) = concordantPairs x y := by
  rw [discordantPairs, List.zip_map_right, laterPairs_map, List.countP_map]
  simp only [Function.comp_def, agreement_map_neg, Left.neg_neg_iff]
  rfl

theorem tiedPairs_map_neg (xs : List ℝ) : tiedPairs (xs.map (-·)) = tiedPairs xs := by
  rw [tiedPairs, laterPairs_map, List.countP_map]
  simp only [Function.comp_def, Prod.map_fst, Prod.map_snd, neg_inj]
  rfl

end Counts

end StudyAnalysis.Exact
