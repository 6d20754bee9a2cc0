/-
**Counts as computed numbers.**

Ranks and sizes enter the statistics as numbers of a fixed precision.  As long as a mantissa holds a
count, nothing is rounded, and the numbers compare as the counts do.

A count becomes a double in three steps: it is shifted until it uses all bits of the mantissa, it is
packed, and it is multiplied by one.  Each of the steps is the identity on a double in parts whose
mantissa uses all of its bits.

Main definitions:

* `StudyAnalysis.Numeric.CountsUpTo` — the numbers of the counts up to a bound compare as the counts
  do.

Main results:

* `StudyAnalysis.Double.roundWithAccuracy_shiftLeft`, `StudyAnalysis.Double.unpack_pack_finite` —
  rounding and packing keep a mantissa that uses all of its bits;
* `StudyAnalysis.Double.unpack_ofNat` — the double of a count in parts;
* `StudyAnalysis.Double.countsUpTo` — **doubles count up to `2 ^ 53`**.
-/

import Mathlib
import StudyAnalysis.Proofs.Number.Order

set_option autoImplicit false
set_option relaxedAutoImplicit false

namespace StudyAnalysis

/-- The numbers of the counts up to a bound compare as the counts do. -/
def Numeric.CountsUpTo (α : Type) [Numeric α] (bound : Nat) : Prop :=
  ∀ i j : Nat, i ≤ bound → j ≤ bound →
    Numeric.order? (Numeric.ofNat i : α) (Numeric.ofNat j) = some (compare i j)

namespace Double

open Float.Model UnpackedFloat

variable {s : Sign} {m n : ℕ} {e : ℤ}

/-! ### Rounding and packing -/

theorem shiftRight_shiftLeft (m k : ℕ) :
    (⟨m <<< k, false, false⟩ : ExtendedMantissa) >>> k = ⟨m, false, false⟩ := by
  change Nat.repeat ExtendedMantissa.shiftRightOne k ⟨m <<< k, false, false⟩ = ⟨m, false, false⟩
  induction k generalizing m with
  | zero => rfl
  | succ k ih =>
      rw [Nat.repeat, Nat.shiftLeft_succ_inside, ih]
      simp [ExtendedMantissa.shiftRightOne]

theorem targetExponent_shiftLeft (k : ℕ) (hm : 2 ^ 52 ≤ m) (hm' : m < 2 ^ 53) (he : -1074 ≤ e) :
    Format.binary64.targetExponent (totalExponent (m <<< k) (e - k)) = e := by
  have hlog : (m <<< k).log2 = 52 + k := by
    rw [Nat.shiftLeft_eq, Nat.log2_eq_iff (by positivity), Nat.pow_add, Nat.add_right_comm,
      Nat.pow_add 2 (52 + 1)]
    exact ⟨Nat.mul_le_mul_right _ hm, Nat.mul_lt_mul_of_pos_right hm' (by positivity)⟩
  rw [Format.targetExponent, totalExponent, hlog]
  change max (((52 + k : ℕ) : ℤ) + 1 + (e - k) - (53 : ℕ)) (-1074) = e
  omega

/-- Shifting to the exponent of the format undoes a shift to the left, without loss. -/
theorem shiftToTargetExponent_shiftLeft (k : ℕ) (hm : 2 ^ 52 ≤ m) (hm' : m < 2 ^ 53)
    (he : -1074 ≤ e) :
    shiftToTargetExponent Format.binary64 (m <<< k) (e - k) .exact = (⟨m, false, false⟩, e) := by
  have hshift : (e - (e - k)).toNat = k := by omega
  rw [shiftToTargetExponent, targetExponent_shiftLeft k hm hm' he, shiftToExponent]
  dsimp only [ExtendedMantissa.ofMantissaAndAccuracy]
  rw [hshift, shiftRight_shiftLeft, Int.sub_add_cancel]

/-- **Rounding keeps a mantissa that uses all of its bits**, also if it is shifted to the left. -/
theorem roundWithAccuracy_shiftLeft (k : ℕ) (hm : 2 ^ 52 ≤ m) (hm' : m < 2 ^ 53)
    (he : -1074 ≤ e) :
    roundWithAccuracy Format.binary64 s (m <<< k) (e - k) .exact = .finite s m e (by omega) := by
  have hagain : shiftToTargetExponent Format.binary64 m e .exact = (⟨m, false, false⟩, e) := by
    simpa using shiftToTargetExponent_shiftLeft 0 hm hm' he
  have hne : m ≠ 0 := by omega
  rw [roundWithAccuracy, shiftToTargetExponent_shiftLeft k hm hm' he]
  dsimp only [ExtendedMantissa.roundedMantissa, ExtendedMantissa.accuracy,
    Accuracy.roundToNearestEven]
  rw [hagain, dif_neg hne]

theorem toNat_ofNat_exponent {b : ℕ} (hb : b < 2 ^ 11) :
    (BitVec.ofNat Format.binary64.exponentBits b).toNat = b := by
  rw [BitVec.toNat_ofNat]
  exact Nat.mod_eq_of_lt hb

/-- **Packing keeps a mantissa that uses all of its bits.** -/
theorem unpack_pack_finite (hm : 2 ^ 52 ≤ m) (hm' : m < 2 ^ 53) (he : -1074 ≤ e) (he' : e ≤ 971) :
    unpack (pack (.finite s m e (by omega))) = .finite s m e (by omega) := by
  have hlog : m.log2 + 1 = Format.binary64.mantissaBits := by
    rw [(Nat.log2_eq_iff (by omega)).2 ⟨hm, hm'⟩]
    rfl
  obtain ⟨b, rfl⟩ : ∃ b : ℕ, e = b - 1075 := ⟨(e + 1075).toNat, by omega⟩
  have hb : (((b : ℤ) - 1075) + Format.binary64.exponentBias
      + Format.binary64.mantissaBitsWithoutImplicit).toNat = b := by
    change ((b : ℤ) - 1075 + (1023 : ℕ) + (52 : ℕ)).toNat = b
    omega
  have hexponent := toNat_ofNat_exponent (show b < 2 ^ 11 by omega)
  have hinfinite : BitVec.ofNat Format.binary64.exponentBits b ≠ -1#_ := by
    intro h
    rw [h] at hexponent
    change 2047 = b at hexponent
    omega
  have hsubnormal : BitVec.ofNat Format.binary64.exponentBits b ≠ 0#_ := by
    intro h
    rw [h] at hexponent
    change 0 = b at hexponent
    omega
  change UnpackedFloat.unpack Format.binary64 (UnpackedFloat.pack Format.binary64 _) = _
  rw [UnpackedFloat.pack]
  dsimp only
  rw [hb, if_neg (show ¬ 2 ^ 11 ≤ b + 1 by omega), if_pos hlog, UnpackedFloat.unpack]
  simp only [unpackMantissa_packComponents, unpackExponent_packComponents,
    unpackSign_packComponents, ofBitVec_toBitVec]
  rw [if_neg hinfinite, if_neg hsubnormal]
  congr 1
  · -- the leading bit, which is not stored, comes back
    rw [BitVec.toNat_append, ← Nat.shiftLeft_add_eq_or_of_lt (BitVec.isLt _)]
    change 1 <<< 52 + m % 2 ^ 52 = m
    rw [Nat.shiftLeft_eq]
    omega
  · rw [hexponent]
    change (b : ℤ) - ((1023 : ℕ) + (52 : ℕ)) = b - 1075
    omega

/-! ### The double of a count -/

/-- The mantissa of a count: the count shifted until it uses all bits. -/
def mantissaOf (n : ℕ) : ℕ :=
  n <<< (52 - n.log2)

/-- The exponent of a count, which undoes the shift. -/
def exponentOf (n : ℕ) : ℤ :=
  -(52 - n.log2 : ℕ)

theorem log2_le (hn : n < 2 ^ 53) : n.log2 ≤ 52 := by
  rcases Nat.eq_zero_or_pos n with rfl | hpos
  · decide
  · exact Nat.le_of_lt_succ ((Nat.log2_lt hpos.ne').2 hn)

theorem mantissaOf_bounds (hpos : 0 < n) (hn : n < 2 ^ 53) :
    2 ^ 52 ≤ mantissaOf n ∧ mantissaOf n < 2 ^ 53 := by
  have hlog := log2_le hn
  obtain ⟨hle, hlt⟩ := (Nat.log2_eq_iff hpos.ne').1 rfl
  have h52 : 2 ^ 52 = 2 ^ n.log2 * 2 ^ (52 - n.log2) := by
    rw [← Nat.pow_add, Nat.add_sub_cancel' hlog]
  have h53 : 2 ^ 53 = 2 ^ (n.log2 + 1) * 2 ^ (52 - n.log2) := by
    rw [← Nat.pow_add, Nat.add_right_comm, Nat.add_sub_cancel' hlog]
  rw [mantissaOf, Nat.shiftLeft_eq, h52, h53]
  exact ⟨Nat.mul_le_mul_right _ hle, Nat.mul_lt_mul_of_pos_right hlt (by positivity)⟩

theorem mantissaOf_pos (hpos : 0 < n) : 0 < mantissaOf n := by
  rw [mantissaOf, Nat.shiftLeft_eq]
  positivity

/-- Rounding a count shifts it, without loss. -/
theorem round_natural (hpos : 0 < n) (hn : n < 2 ^ 53) :
    UnpackedFloat.round Format.binary64 s n 0 =
      .finite s (mantissaOf n) (exponentOf n) (mantissaOf_pos hpos) := by
  have hlog := log2_le hn
  obtain ⟨hm, hm'⟩ := mantissaOf_bounds hpos hn
  have htarget : Format.binary64.targetExponent (totalExponent n 0) = exponentOf n := by
    rw [Format.targetExponent, totalExponent, exponentOf]
    change max ((n.log2 : ℤ) + 1 + 0 - (53 : ℕ)) (-1074) = _
    omega
  have hshift : ((0 : ℤ) - exponentOf n).toNat = 52 - n.log2 := by
    rw [exponentOf]
    omega
  have hexponent : (0 : ℤ) - (52 - n.log2 : ℕ) = exponentOf n - (0 : ℕ) := by
    rw [exponentOf]
    omega
  have hround := roundWithAccuracy_shiftLeft (s := s) (e := exponentOf n) 0 hm hm'
    (by rw [exponentOf]; omega)
  rw [UnpackedFloat.round, htarget, decreaseExponent]
  dsimp only
  rw [hshift, hexponent]
  exact hround

theorem unpack_one : (Float.ofBits 0x3FF0000000000000).toModel.unpack =
    .finite .positive (2 ^ 52) (-52) (by decide) := by
  have h : UnpackedFloat.unpack Format.binary64 (0x3FF0000000000000 : UInt64).toBitVec =
      .finite .positive (2 ^ 52) (-52) (by decide) := rfl
  change unpack (pack (UnpackedFloat.unpack Format.binary64 _)) = _
  rw [h]
  exact unpack_pack_finite (by decide) (by decide) (by decide) (by decide)

theorem unpack_toFloat (hpos : 0 < n) (hn : n < 2 ^ 53) :
    n.toUInt64.toFloat.toModel.unpack =
      .finite .positive (mantissaOf n) (exponentOf n) (mantissaOf_pos hpos) := by
  have hword : n.toUInt64.toNat = n := by
    rw [UInt64.toNat_ofNat']
    omega
  obtain ⟨hm, hm'⟩ := mantissaOf_bounds hpos hn
  have hnormalize : UnpackedFloat.ofUInt64 Format.binary64 n.toUInt64 =
      .finite .positive (mantissaOf n) (exponentOf n) (mantissaOf_pos hpos) := by
    have hcompare : compare (n : ℤ) 0 = .gt := Int.compare_eq_gt.2 (Int.natCast_pos.2 hpos)
    rw [UnpackedFloat.ofUInt64, hword, UnpackedFloat.ofNat, UnpackedFloat.ofInt,
      UnpackedFloat.normalize, hcompare]
    exact round_natural hpos hn
  change unpack (pack (UnpackedFloat.ofUInt64 Format.binary64 n.toUInt64)) = _
  rw [hnormalize]
  exact unpack_pack_finite hm hm' (by rw [exponentOf]; omega) (by rw [exponentOf]; omega)

/-- The double of a count that a mantissa holds is packed from its mantissa and its exponent. -/
theorem toModel_ofNat (hpos : 0 < n) (hn : n < 2 ^ 53) :
    (Float.ofNat n).toModel =
      pack (.finite .positive (mantissaOf n) (exponentOf n) (mantissaOf_pos hpos)) := by
  obtain ⟨hm, hm'⟩ := mantissaOf_bounds hpos hn
  have hproduct : Float.ofNat n = n.toUInt64.toFloat * Float.ofBits 0x3FF0000000000000 := by
    change Float.ofScientific n false 0 = _
    rw [Float.ofScientific, dif_pos ⟨hn, by decide⟩]
    rfl
  have hround := roundWithAccuracy_shiftLeft (s := .positive) 52 hm hm'
    (show -1074 ≤ exponentOf n by rw [exponentOf]; omega)
  have hmul : UnpackedFloat.mul Format.binary64
      (.finite .positive (mantissaOf n) (exponentOf n) (mantissaOf_pos hpos))
      (.finite .positive (2 ^ 52) (-52) (by decide)) =
        .finite .positive (mantissaOf n) (exponentOf n) (mantissaOf_pos hpos) := by
    rw [Nat.shiftLeft_eq] at hround
    exact hround
  rw [hproduct]
  change pack (UnpackedFloat.mul Format.binary64 n.toUInt64.toFloat.toModel.unpack
    (Float.ofBits 0x3FF0000000000000).toModel.unpack) = _
  rw [unpack_toFloat hpos hn, unpack_one, hmul]

/-- **The double of a count** that a mantissa holds, in parts. -/
theorem unpack_ofNat (hpos : 0 < n) (hn : n < 2 ^ 53) :
    (Float.ofNat n).toModel.unpack =
      .finite .positive (mantissaOf n) (exponentOf n) (mantissaOf_pos hpos) := by
  obtain ⟨hm, hm'⟩ := mantissaOf_bounds hpos hn
  rw [toModel_ofNat hpos hn]
  exact unpack_pack_finite hm hm' (by rw [exponentOf]; omega) (by rw [exponentOf]; omega)

/-! ### Comparing counts -/

theorem canonical_count (hpos : 0 < n) (hn : n < 2 ^ 53) :
    Canonical (mantissaOf n) (exponentOf n) := by
  obtain ⟨hm, hm'⟩ := mantissaOf_bounds hpos hn
  exact ⟨hm', by rw [exponentOf]; omega, .inl hm⟩

/-- Brought to a lower exponent, the mantissa of a count is the count, shifted by that exponent. -/
theorem mantissaOf_shiftLeft {low : ℤ} (hlow : low ≤ exponentOf n) :
    mantissaOf n <<< (exponentOf n - low).toNat = n <<< (-low).toNat := by
  have hshift : 52 - n.log2 + (exponentOf n - low).toNat = (-low).toNat := by
    rw [exponentOf] at hlow ⊢
    omega
  rw [mantissaOf, ← Nat.shiftLeft_add, hshift]

theorem compare_ofNat_lt (h : m < n) (hn : n < 2 ^ 53) :
    Numeric.order? (Float.ofNat m) (Float.ofNat n) = some .lt := by
  have hnpos : 0 < n := Nat.zero_lt_of_lt h
  rw [order?_eq_compare, unpack_ofNat hnpos hn]
  rcases Nat.eq_zero_or_pos m with rfl | hmpos
  · rw [zero_unpack]
    rfl
  rw [unpack_ofNat hmpos (h.trans hn)]
  refine congrArg some (compare_eq_lt (canonical_count hmpos (h.trans hn))
    (canonical_count hnpos hn) ?_)
  -- brought to one exponent, both counts are shifted alike
  rw [mantissaOf_shiftLeft (min_le_left _ _), mantissaOf_shiftLeft (min_le_right _ _),
    Nat.shiftLeft_eq, Nat.shiftLeft_eq]
  exact Nat.mul_lt_mul_of_pos_right h (by positivity)

theorem unpack_ofNat_ne (hn : n < 2 ^ 53) : (Float.ofNat n).toModel.unpack ≠ .notANumber := by
  rcases Nat.eq_zero_or_pos n with rfl | hpos
  · rw [zero_unpack]
    exact UnpackedFloat.noConfusion
  · rw [unpack_ofNat hpos hn]
    exact UnpackedFloat.noConfusion

/-- **Doubles count** as far as a mantissa holds the count. -/
theorem countsUpTo {bound : ℕ} (hbound : bound < 2 ^ 53) : Numeric.CountsUpTo Float bound := by
  intro i j hi hj
  rcases Nat.lt_trichotomy i j with h | rfl | h
  · rw [Nat.compare_eq_lt.2 h]
    exact compare_ofNat_lt h (by omega)
  · rw [Nat.compare_eq_eq.2 rfl]
    exact order?_self (unpack_ofNat_ne (by omega))
  · rw [Nat.compare_eq_gt.2 h]
    change Numeric.order? (Float.ofNat i) (Float.ofNat j) = _
    rw [← order?_swap, compare_ofNat_lt h (by omega)]
    rfl

end Double

end StudyAnalysis
