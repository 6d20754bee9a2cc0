/-
**The order in which doubles are sorted.**

Samples are sorted by the bits of their values and not by comparing them.  For numbers the two orders
agree but for the zeros: sorting puts the negative zero before the positive one, which compare as
equal.

The exponent bits of a double stand above its mantissa bits, so both together count the doubles on
one side of zero, in the order of their places.

Main definitions:

* `StudyAnalysis.Double.Reads` — what the exponent bits and the mantissa bits of a double stand for.

Main results:

* `StudyAnalysis.Double.reads_unpack` — the bits of a number, and the parts that they stand for;
* `StudyAnalysis.Double.toNat_orderKey` — the word by which doubles are sorted;
* `StudyAnalysis.Double.place_le_of_totalLe` — **doubles are sorted in the order of their places**.
-/

import Mathlib
import StudyAnalysis.Proofs.Number.Integers

set_option autoImplicit false
set_option relaxedAutoImplicit false

namespace StudyAnalysis.Double

open Float.Model UnpackedFloat

variable {s : Sign} {E M E' M' : ℕ} {u v : UnpackedFloat}

/-! ### Bits and parts -/

/-- The exponent bits and the mantissa bits of a double with a sign stand for its parts. -/
inductive Reads (s : Sign) : ℕ → ℕ → UnpackedFloat → Prop
  | zero : Reads s 0 0 (.zero s)
  | subnormal {M : ℕ} (hm : 0 < M) : Reads s 0 M (.finite s M (-1074) hm)
  | normal {E M m : ℕ} {hm : 0 < m} (hpos : 0 < E) (hlt : E < 2047) (hvalue : m = 2 ^ 52 + M) :
      Reads s E M (.finite s m (E - 1075) hm)
  | infinity : Reads s 2047 0 (.infinity s)

/-- **The bits of a number**: the exponent above the mantissa, and what they stand for. -/
theorem reads_unpack {b : BitVec 64} (h : UnpackedFloat.unpack Format.binary64 b ≠ .notANumber) :
    ∃ E M, M < 2 ^ 52 ∧ b.toNat % 2 ^ 63 = E * 2 ^ 52 + M ∧
      Reads (Sign.ofBitVec (@unpackSign Format.binary64 b)) E M
        (UnpackedFloat.unpack Format.binary64 b) := by
  have hexponent : (@unpackExponent Format.binary64 b).toNat = b.toNat / 2 ^ 52 % 2 ^ 11 := by
    change (b.extractLsb' 52 11).toNat = _
    rw [BitVec.extractLsb'_toNat, Nat.shiftRight_eq_div_pow]
  have hmantissa : (@unpackMantissa Format.binary64 b).toNat = b.toNat % 2 ^ 52 := by
    change (b.extractLsb' 0 52).toNat = _
    rw [BitVec.extractLsb'_toNat, Nat.shiftRight_zero]
  refine ⟨(@unpackExponent Format.binary64 b).toNat, (@unpackMantissa Format.binary64 b).toNat,
    ?_, ?_, ?_⟩
  · rw [hmantissa]
    exact Nat.mod_lt _ (by positivity)
  · rw [hexponent, hmantissa]
    omega
  · rw [UnpackedFloat.unpack] at h ⊢
    dsimp only at h ⊢
    by_cases hall : @unpackExponent Format.binary64 b = -1#_
    · rw [if_pos hall] at h ⊢
      by_cases hzero : @unpackMantissa Format.binary64 b = 0#_
      · rw [if_pos hzero, hall, hzero]
        exact .infinity
      · rw [if_neg hzero] at h
        exact absurd rfl h
    rw [if_neg hall]
    by_cases hleast : @unpackExponent Format.binary64 b = 0#_
    · rw [if_pos hleast, hleast]
      by_cases hzero : @unpackMantissa Format.binary64 b = 0#_
      · rw [dif_pos hzero, hzero]
        exact .zero
      · rw [dif_neg hzero]
        exact .subnormal (Nat.pos_of_ne_zero fun h => hzero (BitVec.eq_of_toNat_eq h))
    · rw [if_neg hleast]
      have hpos : 0 < (@unpackExponent Format.binary64 b).toNat :=
        Nat.pos_of_ne_zero fun h => hleast (BitVec.eq_of_toNat_eq h)
      have hne : (@unpackExponent Format.binary64 b).toNat ≠ 2047 := fun h =>
        hall (BitVec.eq_of_toNat_eq h)
      refine .normal hpos (by omega) ?_
      -- the leading bit, which is not stored, stands above the others
      rw [BitVec.toNat_append, ← Nat.shiftLeft_add_eq_or_of_lt (BitVec.isLt _), Nat.shiftLeft_eq]
      rfl

/-- What two words stand for on the side of the positive numbers is in the order of the words. -/
theorem Reads.place_le (hu : Reads .positive E M u) (hv : Reads .positive E' M' v)
    (hM : M < 2 ^ 52) (hM' : M' < 2 ^ 52) (h : E * 2 ^ 52 + M ≤ E' * 2 ^ 52 + M') :
    place u ≤ place v := by
  cases hu <;> cases hv <;> simp [place, Sign.apply, Prod.Lex.toLex_le_toLex] <;> omega

theorem Reads.upward (h : Reads .positive E M u) (hM : M < 2 ^ 52) : Upward u := by
  cases h with
  | zero => exact .zero _
  | subnormal hm => exact .finite ⟨by omega, le_rfl, .inr rfl⟩
  | normal hpos hlt hvalue => exact .finite ⟨by omega, by omega, .inl (by omega)⟩
  | infinity => exact .infinity

/-- With the other sign the same bits stand for the negation. -/
theorem Reads.exists_neg (h : Reads .negative E M u) : ∃ v, Reads .positive E M v ∧ u = v.neg := by
  cases h with
  | zero => exact ⟨_, .zero, rfl⟩
  | subnormal hm => exact ⟨_, .subnormal hm, rfl⟩
  | @normal _ _ m hm hpos hlt hvalue => exact ⟨.finite .positive m _ hm, .normal hpos hlt hvalue, rfl⟩
  | infinity => exact ⟨_, .infinity, rfl⟩

/-! ### The word of a double -/

theorem xor_two_pow {n : ℕ} (h : n < 2 ^ 63) : n ^^^ 2 ^ 63 = n + 2 ^ 63 := by
  have hdiv : (n ^^^ 2 ^ 63) / 2 ^ 63 = 1 := by
    rw [Nat.xor_div_two_pow, Nat.div_eq_of_lt h, Nat.div_self (by positivity), Nat.zero_xor]
  have hmod : (n ^^^ 2 ^ 63) % 2 ^ 63 = n := by
    rw [Nat.xor_mod_two_pow, Nat.mod_eq_of_lt h, Nat.mod_self, Nat.xor_zero]
  omega

/-- **The word by which doubles are sorted**: it counts upwards from the middle for doubles without a
sign bit, and downwards for the others. -/
theorem toNat_orderKey (x : Float) : (orderKey x).toNat =
    if x.toBits.toNat < 2 ^ 63 then x.toBits.toNat + 2 ^ 63 else 2 ^ 64 - 1 - x.toBits.toNat := by
  have hsign : x.toBits < 0x8000000000000000 ↔ x.toBits.toNat < 2 ^ 63 := Iff.rfl
  rw [orderKey]
  by_cases h : x.toBits.toNat < 2 ^ 63
  · rw [if_pos (hsign.2 h), if_pos h, UInt64.toNat_xor]
    exact xor_two_pow h
  · rw [if_neg (mt hsign.1 h), if_neg h, UInt64.toNat_not]
    rfl

theorem ofBitVec_unpackSign (b : BitVec 64) : Sign.ofBitVec (@unpackSign Format.binary64 b) =
    if b.toNat < 2 ^ 63 then .positive else .negative := by
  rw [Sign.ofBitVec]
  by_cases h : b.toNat < 2 ^ 63
  · rw [if_pos h, if_pos ((toNat_lt_iff_unpackSign b).1 h)]
  · rw [if_neg h, if_neg (mt (toNat_lt_iff_unpackSign b).2 h)]

/-- **Doubles are sorted in the order of their places**, what is not a number apart. -/
theorem place_le_of_totalLe {x y : Float} (hx : x.toModel.unpack ≠ .notANumber)
    (hy : y.toModel.unpack ≠ .notANumber) (h : Numeric.totalLe x y = true) :
    place x.toModel.unpack ≤ place y.toModel.unpack := by
  have hle : (orderKey x).toNat ≤ (orderKey y).toNat := of_decide_eq_true h
  rw [toNat_orderKey, toNat_orderKey] at hle
  obtain ⟨E, M, hM, hbits, hreads⟩ := reads_unpack hx
  obtain ⟨E', M', hM', hbits', hreads'⟩ := reads_unpack hy
  change x.toBits.toNat % 2 ^ 63 = _ at hbits
  change y.toBits.toNat % 2 ^ 63 = _ at hbits'
  rw [ofBitVec_unpackSign] at hreads hreads'
  change Reads (if x.toBits.toNat < 2 ^ 63 then _ else _) E M x.toModel.unpack at hreads
  change Reads (if y.toBits.toNat < 2 ^ 63 then _ else _) E' M' y.toModel.unpack at hreads'
  have hlt := UInt64.toNat_lt x.toBits
  have hlt' := UInt64.toNat_lt y.toBits
  by_cases hpos : x.toBits.toNat < 2 ^ 63 <;> by_cases hpos' : y.toBits.toNat < 2 ^ 63
  · rw [if_pos hpos] at hreads hle
    rw [if_pos hpos'] at hreads' hle
    exact hreads.place_le hreads' hM hM' (by omega)
  · -- a negative double is sorted before a positive one
    rw [if_pos hpos, if_neg hpos'] at hle
    omega
  · rw [if_neg hpos] at hreads
    rw [if_pos hpos'] at hreads'
    obtain ⟨u, hu, hneg⟩ := hreads.exists_neg
    rw [hneg]
    exact place_neg_le (hu.upward hM) (hreads'.upward hM')
  · rw [if_neg hpos] at hreads hle
    rw [if_neg hpos'] at hreads' hle
    obtain ⟨u, hu, hneg⟩ := hreads.exists_neg
    obtain ⟨v, hv, hneg'⟩ := hreads'.exists_neg
    rw [hneg, hneg', place_neg_le_place_neg (hv.upward hM') (hu.upward hM)]
    exact hv.place_le hu hM' hM (by omega)

end StudyAnalysis.Double
