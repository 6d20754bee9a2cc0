/-
**Ranks of doubles.**

Finite doubles are sorted by their bits, where the negative zero stands before the positive one, and
tied by comparison, where the two zeros are equal.  Each of them has a place in the order of the
doubles, which both agree with.  So their ranks are the counted ones: what is not equal is never
tied, and the zeros share their positions like any other values that are equal.

The counts are whole numbers.  Their sum is rounded at most once, and halving a double that is at
least one is exact.

Main definitions:

* `StudyAnalysis.belowCount`, `StudyAnalysis.tieCount` — how many values are below one, or equal to it;
* `StudyAnalysis.Double.Denotes` — the number that a double stands for.

Main results:

* `StudyAnalysis.Double.graded` — finite doubles compare as their places do;
* `StudyAnalysis.Double.add_self_half` — halving a double that is at least one is exact;
* `StudyAnalysis.ranks_of_finite` — **the ranks of finite doubles**, in any order.
-/

import Mathlib
import StudyAnalysis.Proofs.Number.TotalOrder
import StudyAnalysis.Proofs.Statistics.TieRuns

set_option autoImplicit false
set_option relaxedAutoImplicit false

namespace StudyAnalysis

/-! ### Halves of counts -/

namespace Double

open Float.Model UnpackedFloat

/-- A double that is not below zero stands for a number. -/
def Denotes (x : Float) (r : ℚ) : Prop :=
  Upward x.toModel.unpack ∧ size x.toModel.unpack = r

theorem Upward.eq_infinity {u : UnpackedFloat} (hu : Upward u) (h : size u = ⊤) :
    u = .infinity .positive := by
  cases hu with
  | zero s | finite h' => exact absurd h WithTop.coe_ne_top
  | infinity => rfl

/-- A double of at least one is far from the least exponent, so its half is a double. -/
theorem nearest_half {m : ℕ} {e : ℤ} (h : Canonical m e) (hm : 0 < m)
    (hone : (1 : ℚ) ≤ m * 2 ^ e) : nearest (m * 2 ^ e / 2) = m * 2 ^ e / 2 := by
  have hexponent : -1073 ≤ e := by
    by_contra hlow
    have hpow : (2 : ℚ) ^ e ≤ 2 ^ (-1074 : ℤ) := zpow_le_zpow_right₀ one_le_two (by omega)
    have hlt : (m : ℚ) < 2 ^ 53 := by exact_mod_cast h.lt
    have hsmall : (2 : ℚ) ^ 53 * 2 ^ (-1074 : ℤ) < 1 := by
      rw [← zpow_natCast, ← zpow_add₀ two_ne_zero]
      exact zpow_lt_one_of_neg₀ one_lt_two (by norm_num)
    exact absurd hone (not_le.2 (lt_of_le_of_lt (by gcongr) hsmall))
  have hhalf : Canonical m (e - 1) := ⟨h.lt, by omega, .inl (h.full.resolve_right (by omega))⟩
  have hscaled : (m * 2 ^ e / 2 : ℚ) = m * 2 ^ (e - 1) := by
    rw [zpow_sub_one₀ two_ne_zero]
    ring
  rw [hscaled, nearest_of_canonical hhalf hm]

/-- Half of the infinite double is infinite. -/
theorem half_infinity {x : Float} (h : x.toModel.unpack = .infinity .positive) :
    (x / Float.ofNat 2).toModel.unpack = .infinity .positive := by
  change unpack (pack (UnpackedFloat.div _ x.toModel.unpack (Float.ofNat 2).toModel.unpack)) = _
  rw [h, unpack_ofNat two_pos (by decide)]
  exact unpack_packedInfinity

/-- **Halving a double that is at least one is exact**: two halves are the whole. -/
theorem add_self_half {x : Float} (hx : Upward x.toModel.unpack) (hone : 1 ≤ size x.toModel.unpack) :
    Upward (x / Float.ofNat 2).toModel.unpack ∧
      size (x / Float.ofNat 2).toModel.unpack + size (x / Float.ofNat 2).toModel.unpack =
        size x.toModel.unpack := by
  by_cases htop : size x.toModel.unpack = ⊤
  · have hinfinite : x.toModel.unpack = .infinity .positive := hx.eq_infinity htop
    rw [half_infinity hinfinite, hinfinite]
    exact ⟨.infinity, rfl⟩
  · obtain ⟨hup, hsize⟩ := upward_quotient hx htop two_pos
    refine ⟨hup, ?_⟩
    obtain ⟨b, hb⟩ := represented_unpack x
    rw [hsize, size_ofNat_eq (by decide)]
    generalize x.toModel.unpack = u at hx hone htop hb
    cases hx with
    | zero s => exact absurd hone zero_lt_one.not_ge
    | infinity => exact absurd rfl htop
    | @finite m e hm h =>
        have hvalue : (1 : ℚ) ≤ m * 2 ^ e := WithTop.coe_le_coe.1 hone
        have hcap : (m * 2 ^ e / 2 : ℚ) < 2 ^ 1024 :=
          (half_le_self (zero_le_one.trans hvalue)).trans_lt (value_lt h (exponent_le_of_unpack hb))
        change cap (nearest (m * 2 ^ e / 2)) + cap (nearest (m * 2 ^ e / 2)) =
          ((m * 2 ^ e : ℚ) : WithTop ℚ)
        rw [nearest_half h hm hvalue, cap, if_pos hcap, ← WithTop.coe_add, add_halves]

/-- Half of a count of at least one, which a mantissa holds. -/
theorem denotes_half {n : ℕ} (hpos : 0 < n) (hn : n ≤ 2 ^ 53) :
    Denotes (Float.ofNat n / Float.ofNat 2) (n / 2 : ℚ) := by
  obtain ⟨hup, hdouble⟩ := add_self_half (upward_ofNat n) (one_le_size_ofNat hpos)
  rw [size_ofNat_eq hn] at hdouble
  refine ⟨hup, ?_⟩
  generalize size (Float.ofNat n / Float.ofNat 2).toModel.unpack = half at hdouble
  cases half with
  | top => cases hdouble
  | coe q =>
      have hq : q + q = n := WithTop.coe_injective hdouble
      rw [WithTop.coe_inj]
      linarith

/-! ### Finite samples -/

/-- **Finite doubles compare as their places do**, and they are sorted in the order of the places. -/
theorem graded {xs : List Float} (h : ∀ x ∈ xs, x.isFinite = true) :
    Graded (fun x => place x.toModel.unpack) xs where
  lt_iff x hx y hy := by
    rw [lt_iff_place]
    exact and_iff_right (ne_notANumber_of_isFinite (h x hx)) |>.trans
      (and_iff_right (ne_notANumber_of_isFinite (h y hy)))
  beq_iff x hx y hy :=
    beq_iff_place (ne_notANumber_of_isFinite (h x hx)) (ne_notANumber_of_isFinite (h y hy))
  le_of_totalLe x hx y hy := place_le_of_totalLe (ne_notANumber_of_isFinite (h x hx))
    (ne_notANumber_of_isFinite (h y hy))

end Double

/-! ### Ranks -/

section Counts

variable {α : Type} [Numeric α] {n : ℕ}

/-- The number of values that are below the value at a place. -/
def belowCount (x : Fin n → α) (i : Fin n) : ℕ :=
  (Finset.univ.filter fun j => x j < x i).card

/-- The number of values that are equal to the value at a place, itself included. -/
def tieCount (x : Fin n → α) (i : Fin n) : ℕ :=
  (Finset.univ.filter fun j => (x j == x i) = true).card

omit [Numeric α] in
theorem countP_ofFn (x : Fin n → α) (p : α → Bool) :
    (List.ofFn x).countP p = (Finset.univ.filter fun i => p (x i) = true).card := by
  rw [List.ofFn_eq_map, List.countP_map, List.countP_eq_length_filter]
  change _ = ((List.finRange n).filter fun i => decide (p (x i) = true)).length
  simp only [Bool.decide_eq_true, Function.comp_def]

theorem rankAmong_ofFn (x : Fin n → α) (i : Fin n) :
    rankAmong (List.ofFn x) (x i) =
      Numeric.ofNat (2 * belowCount x i + tieCount x i + 1) / Numeric.ofNat 2 := by
  rw [rankAmong, countP_ofFn, countP_ofFn, belowCount, tieCount]
  simp only [decide_eq_true_eq]
  rfl

/-- What is below a value is not equal to it. -/
theorem belowCount_add_tieCount_le (hasymm : ∀ a b : α, a < b → ¬ (a == b) = true) (x : Fin n → α)
    (i : Fin n) : belowCount x i + tieCount x i ≤ n := by
  have hdisjoint : Disjoint (Finset.univ.filter fun j => x j < x i)
      (Finset.univ.filter fun j => (x j == x i) = true) :=
    Finset.disjoint_filter.2 fun j _ => hasymm (x j) (x i)
  rw [belowCount, tieCount, ← Finset.card_union_of_disjoint hdisjoint]
  exact (Finset.card_le_univ _).trans_eq (Fintype.card_fin n)

/-- The ranks of a sample whose values are graded, in any order of the sample. -/
theorem Graded.ranks_ofFn [TotallyOrdered α] {γ : Type} [LinearOrder γ] {grade : α → γ}
    {x : Fin n → α} (h : Graded grade (List.ofFn x)) (σ : Equiv.Perm (Fin n)) :
    ranks (List.ofFn (x ∘ σ)) = List.ofFn (fun i => rankAmong (List.ofFn x) (x (σ i))) := by
  have hperm := σ.ofFn_comp_perm x
  have hgraded : Graded grade (List.ofFn (x ∘ σ)) := h.of_perm hperm.symm
  rw [hgraded.ranks_eq, rankAmong_eq_of_perm hperm, List.map_ofFn]
  rfl

end Counts

open Double in
/-- **The ranks of finite doubles.**  Every list of finite doubles has ranks `r`, one for each value,
and a list with the values in another order has the ranks in that order.  The rank of a value is
half of a whole number, that of twice as many values as are below it, as many as are equal to it, and
one: doubled, it is the double nearest to that number, and in a list of fewer than `2 ^ 52` values it
stands for the number of smaller values and half of one more than the number of equal ones.  Equal
values have equal ranks. -/
theorem ranks_of_finite {n : ℕ} (x : Fin n → Float) (hx : ∀ i, (x i).isFinite = true) :
    ∃ r : Fin n → Float,
      (∀ σ : Equiv.Perm (Fin n), ranks (List.ofFn (x ∘ σ)) = List.ofFn (r ∘ σ)) ∧
      (∀ i, r i = Float.ofNat (2 * belowCount x i + tieCount x i + 1) / Float.ofNat 2 ∧
        Upward (r i).toModel.unpack ∧
        size (r i).toModel.unpack + size (r i).toModel.unpack =
          cap (nearest ↑(2 * belowCount x i + tieCount x i + 1)) ∧
        (n < 2 ^ 52 → Denotes (r i) (belowCount x i + (tieCount x i + 1) / 2))) ∧
      ∀ i j, (x i == x j) = true → r i = r j := by
  have hgraded : Graded (fun x => place x.toModel.unpack) (List.ofFn x) := by
    refine graded fun y hy => ?_
    obtain ⟨i, rfl⟩ := List.mem_ofFn.1 hy
    exact hx i
  refine ⟨fun i => rankAmong (List.ofFn x) (x i), hgraded.ranks_ofFn, fun i => ?_,
    fun i j => hgraded.rankAmong_eq (List.mem_ofFn.2 ⟨i, rfl⟩) (List.mem_ofFn.2 ⟨j, rfl⟩)⟩
  have hrank : rankAmong (List.ofFn x) (x i) =
      Float.ofNat (2 * belowCount x i + tieCount x i + 1) / Float.ofNat 2 := rankAmong_ofFn x i
  have hsides : belowCount x i + tieCount x i ≤ n :=
    belowCount_add_tieCount_le (fun a b hlt heq => (not_lt_of_beq heq).1 hlt) x i
  have hvalue : ((2 * belowCount x i + tieCount x i + 1 : ℕ) / 2 : ℚ) =
      belowCount x i + (tieCount x i + 1) / 2 := by
    push_cast
    ring
  dsimp only
  rw [hrank, ← hvalue]
  obtain ⟨hup, hdouble⟩ := add_self_half (upward_ofNat _) (one_le_size_ofNat (Nat.succ_pos _))
  refine ⟨rfl, hup, ?_, fun hn => denotes_half (Nat.succ_pos _) (by omega)⟩
  rw [hdouble, (size_ofNat (Nat.succ_pos _)).2]

/-- The two zeros share their positions, from whichever end the list is read. -/
theorem ranks_zeros :
    (∀ i, ((![2, 0, -1, -0] : Fin 4 → Float) i).isFinite = true) ∧
      ranks ([2, 0, -1, -0] : List Float) = [4, 2.5, 1, 2.5] ∧
      ranks ([-0, -1, 0, 2] : List Float) = [2.5, 1, 2.5, 4] := by
  have hfinite : ∀ i, ((![2, 0, -1, -0] : Fin 4 → Float) i).isFinite = true := by decide +kernel
  obtain ⟨r, hranks, hvalue, hties⟩ := ranks_of_finite ![2, 0, -1, -0] hfinite
  have h : r = ![4, 2.5, 1, 2.5] := by
    have h₀ : r 0 = 4 := (hvalue 0).1.trans (by decide +kernel)
    have h₁ : r 1 = 2.5 := (hvalue 1).1.trans (by decide +kernel)
    have h₂ : r 2 = 1 := (hvalue 2).1.trans (by decide +kernel)
    have h₃ : r 3 = r 1 := hties 3 1 (by decide +kernel)
    funext i
    fin_cases i
    · exact h₀
    · exact h₁
    · exact h₂
    · exact h₃.trans h₁
  rw [h] at hranks
  exact ⟨hfinite, hranks 1, hranks Fin.revPerm⟩

end StudyAnalysis
