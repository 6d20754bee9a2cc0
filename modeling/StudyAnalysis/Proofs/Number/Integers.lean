/-
**Comparing integers as doubles.**

An integer is compared through the nearest double.  Rounding is monotone, on both sides of zero, so
two integers never compare the wrong way around; but from `2 ^ 53` on different integers may have the
same double, and then they compare as equal.  An integer of smaller size shares its double with no
other one.

Main results:

* `StudyAnalysis.Double.unpack_neg` — the negation of a double in parts;
* `StudyAnalysis.Double.place_ofInt_mono`, `StudyAnalysis.Double.place_ofInt_lt` — the doubles of
  integers are in the order of the integers, strictly as far as a mantissa holds one of them;
* `StudyAnalysis.Double.order?_ofInt` — **how the doubles of two integers compare**.
-/

import Mathlib
import StudyAnalysis.Proofs.Number.Probabilities

set_option autoImplicit false
set_option relaxedAutoImplicit false

namespace StudyAnalysis.Double

open Float.Model UnpackedFloat

/-! ### Negation -/

/-- **The negation of a double**, in parts. -/
theorem unpack_neg (x : Float) : (Float.neg x).toModel.unpack = x.toModel.unpack.neg := by
  obtain ⟨b, hb⟩ := represented_unpack x
  change unpack (pack x.toModel.unpack.neg) = x.toModel.unpack.neg
  generalize x.toModel.unpack = u at hb
  cases u with
  | notANumber => exact unpack_packedNaN
  | infinity s => exact unpack_packedInfinity
  | zero s => exact unpack_packedZero
  | finite s m e hm =>
      exact unpack_pack_canonical (canonical_of_unpack hb) (exponent_le_of_unpack hb)

theorem neg_positive : -Sign.positive = .negative := rfl

/-- Below zero the order of the doubles is turned around. -/
theorem place_neg_le_place_neg {u v : UnpackedFloat} (hu : Upward u) (hv : Upward v) :
    place v.neg ≤ place u.neg ↔ place u ≤ place v := by
  cases hu <;> cases hv <;>
    simp [place, UnpackedFloat.neg, neg_positive, Sign.apply, Prod.Lex.toLex_le_toLex]
  exact or_congr_right (and_congr_left fun _ => eq_comm)

theorem place_neg_lt_place_neg {u v : UnpackedFloat} (hu : Upward u) (hv : Upward v) :
    place v.neg < place u.neg ↔ place u < place v := by
  rw [← not_le, place_neg_le_place_neg hv hu, not_le]

/-- A double that is negated is not above one that is not below zero. -/
theorem place_neg_le {u v : UnpackedFloat} (hu : Upward u) (hv : Upward v) :
    place u.neg ≤ place v := by
  cases hu <;> cases hv <;>
    simp [place, UnpackedFloat.neg, neg_positive, Sign.apply, Prod.Lex.toLex_le_toLex]

/-! ### Counts -/

variable {m n : ℕ}

theorem upward_ofNat (n : ℕ) : Upward (Float.ofNat n).toModel.unpack := by
  rcases Nat.eq_zero_or_pos n with rfl | hpos
  · rw [zero_unpack]
    exact .zero _
  · exact (size_ofNat hpos).1

theorem place_ofNat_mono (h : m ≤ n) :
    place (Float.ofNat m).toModel.unpack ≤ place (Float.ofNat n).toModel.unpack := by
  refine place_le_of_size_le (upward_ofNat m) (upward_ofNat n) ?_
  rcases Nat.eq_zero_or_pos m with rfl | hpos
  · rw [zero_unpack]
    exact (upward_ofNat n).size_nonneg
  · exact size_ofNat_mono hpos h

/-- The first count that no mantissa holds is a double all the same. -/
theorem size_ofNat_eq (hn : n ≤ 2 ^ 53) : size (Float.ofNat n).toModel.unpack = (n : ℚ) := by
  rcases Nat.eq_zero_or_pos n with rfl | hpos
  · rw [zero_unpack]
    exact congrArg _ Nat.cast_zero.symm
  have hnearest : nearest n = n := by
    rcases hn.lt_or_eq with hlt | rfl
    · exact nearest_natCast hpos hlt
    · have hcanonical : Canonical (2 ^ 52) 1 := ⟨by decide, by decide, .inl le_rfl⟩
      have hkept := nearest_of_canonical hcanonical (by positivity)
      have hvalue : ((2 ^ 52 : ℕ) : ℚ) * 2 ^ (1 : ℤ) = (2 ^ 53 : ℕ) := by norm_num
      rwa [hvalue] at hkept
  rw [(size_ofNat hpos).2, hnearest, cap, if_pos]
  calc (n : ℚ) ≤ 2 ^ 53 := by exact_mod_cast hn
    _ < 2 ^ 1024 := pow_lt_pow_right₀ one_lt_two (by decide)

/-- A count that a mantissa holds is below all greater ones. -/
theorem place_ofNat_lt (h : m < n) (hm : m < 2 ^ 53) :
    place (Float.ofNat m).toModel.unpack < place (Float.ofNat n).toModel.unpack := by
  refine lt_of_lt_of_le (not_le.1 fun hle => ?_) (place_ofNat_mono (Nat.succ_le_of_lt h))
  have hsize := size_le_of_place_le (upward_ofNat _) (upward_ofNat m) hle
  rw [size_ofNat_eq (Nat.succ_le_of_lt hm), size_ofNat_eq hm.le, WithTop.coe_le_coe,
    Nat.cast_le] at hsize
  exact absurd hsize (Nat.not_succ_le_self m)

/-! ### Integers -/

variable {i j : ℤ}

theorem unpack_negSucc (n : ℕ) :
    (Float.ofInt (.negSucc n)).toModel.unpack = (Float.ofNat (n + 1)).toModel.unpack.neg :=
  unpack_neg (Float.ofNat (n + 1))

theorem ne_notANumber_ofInt (i : ℤ) : (Float.ofInt i).toModel.unpack ≠ .notANumber := by
  cases i with
  | ofNat n => exact (upward_ofNat n).ne_notANumber
  | negSucc n =>
      have hup := upward_ofNat (n + 1)
      rw [unpack_negSucc]
      generalize (Float.ofNat (n + 1)).toModel.unpack = u at hup
      cases hup <;> exact UnpackedFloat.noConfusion

/-- The double of an integer below zero is below that of a count. -/
theorem place_negSucc_lt (m n : ℕ) :
    place (Float.ofInt (.negSucc m)).toModel.unpack < place (Float.ofNat n).toModel.unpack := by
  have hzero : place (Float.ofNat 0).toModel.unpack.neg = place (Float.ofNat 0).toModel.unpack := by
    rw [zero_unpack]
    rfl
  refine lt_of_lt_of_le ?_ (place_ofNat_mono (Nat.zero_le n))
  rw [unpack_negSucc, ← hzero, place_neg_lt_place_neg (upward_ofNat 0) (upward_ofNat (m + 1))]
  exact place_ofNat_lt (Nat.succ_pos m) (by decide)

/-- **Rounding integers is monotone.** -/
theorem place_ofInt_mono (h : i ≤ j) :
    place (Float.ofInt i).toModel.unpack ≤ place (Float.ofInt j).toModel.unpack := by
  cases i with
  | ofNat m =>
      cases j with
      | ofNat n => exact place_ofNat_mono (Int.ofNat_le.1 h)
      | negSucc n => exact absurd (h.trans_lt (Int.negSucc_lt_zero n)) (Int.natCast_nonneg m).not_gt
  | negSucc m =>
      cases j with
      | ofNat n => exact (place_negSucc_lt m n).le
      | negSucc n =>
          rw [unpack_negSucc, unpack_negSucc,
            place_neg_le_place_neg (upward_ofNat _) (upward_ofNat _)]
          exact place_ofNat_mono (by omega)

/-- **An integer that a mantissa holds shares its double with no other one.** -/
theorem place_ofInt_lt (h : i < j) (hsmall : i.natAbs < 2 ^ 53 ∨ j.natAbs < 2 ^ 53) :
    place (Float.ofInt i).toModel.unpack < place (Float.ofInt j).toModel.unpack := by
  cases i with
  | ofNat m =>
      cases j with
      | ofNat n =>
          rw [Int.ofNat_eq_natCast, Int.ofNat_eq_natCast] at h hsmall
          exact place_ofNat_lt (by omega) (by omega)
      | negSucc n => exact absurd (h.trans (Int.negSucc_lt_zero n)) (Int.natCast_nonneg m).not_gt
  | negSucc m =>
      cases j with
      | ofNat n => exact place_negSucc_lt m n
      | negSucc n =>
          rw [unpack_negSucc, unpack_negSucc,
            place_neg_lt_place_neg (upward_ofNat _) (upward_ofNat _)]
          exact place_ofNat_lt (by omega) (by omega)

/-- **How the doubles of two integers compare**: as the integers do, unless they are equal. -/
theorem order?_ofInt (i j : ℤ) : Numeric.order? (Float.ofInt i) (Float.ofInt j) =
    some (if Float.ofInt i == Float.ofInt j then .eq else compare i j) := by
  by_cases hshared : (Float.ofInt i == Float.ofInt j) = true
  · rw [if_pos hshared]
    exact OrderFaithful.beq_iff.1 hshared
  · have hne : place (Float.ofInt i).toModel.unpack ≠ place (Float.ofInt j).toModel.unpack :=
      fun h => hshared ((beq_iff_place (ne_notANumber_ofInt i) (ne_notANumber_ofInt j)).2 h)
    rw [if_neg hshared, order?_eq_compare,
      compare_eq_compare_place (ne_notANumber_ofInt i) (ne_notANumber_ofInt j)]
    rcases lt_trichotomy i j with h | rfl | h
    · rw [compare_lt_iff_lt.2 h, compare_lt_iff_lt.2 ((place_ofInt_mono h.le).lt_of_ne hne)]
    · exact absurd rfl hne
    · rw [compare_gt_iff_gt.2 h, compare_gt_iff_gt.2 ((place_ofInt_mono h.le).lt_of_ne hne.symm)]

/-- The integers with sizes below `2 ^ 53` have doubles of their own. -/
theorem ofInt_beq_ofInt_iff (hj : j.natAbs < 2 ^ 53) :
    (Float.ofInt i == Float.ofInt j) = true ↔ i = j := by
  rw [beq_iff_place (ne_notANumber_ofInt i) (ne_notANumber_ofInt j)]
  refine ⟨fun h => ?_, fun h => by rw [h]⟩
  rcases lt_trichotomy i j with hlt | rfl | hgt
  · exact absurd h (place_ofInt_lt hlt (.inr hj)).ne
  · rfl
  · exact absurd h (place_ofInt_lt hgt (.inl hj)).ne'

end StudyAnalysis.Double
