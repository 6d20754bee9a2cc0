/-
**The signs of computed numbers.**

A computed number is rounded, but rounding never turns its sign around: a difference that is not
zero says which of its parts is the smaller one, and dividing by a positive root leaves the sign of
the numerator.  What the directions of comparisons need of a type of numbers is collected in
`SignFaithful`, and doubles have it.

A double is looked at in parts: a sign, a mantissa and an exponent.  Two doubles on the same side of
zero compare by exponent first, which is the order of their values because a mantissa uses all of
its bits unless its exponent is the least one.

Main definitions:

* `StudyAnalysis.SignFaithful` — comparisons and arithmetic agree about signs;
* `StudyAnalysis.Double.Points` — a double in parts lies strictly on one side of zero;
* `StudyAnalysis.Double.Canonical` — the mantissas and exponents that occur.

Main results:

* `StudyAnalysis.Double.compare_of_points_sub` — the sign of a difference;
* `StudyAnalysis.Double.points_of_points_div_sqrt` — the sign of a quotient by a root;
* `StudyAnalysis.Double.signum_of_points` — the sign as a number.
-/

import Mathlib
import StudyAnalysis.Number.Double

set_option autoImplicit false
set_option relaxedAutoImplicit false

namespace StudyAnalysis

/-- Numbers whose comparisons tell the signs of what is computed from them. -/
class SignFaithful (α : Type) [Numeric α] : Prop where
  lt_asymm {x y : α} : x < y → ¬ y < x
  pos_or_neg {x : α} : Numeric.isFinite x = true → (x == 0) = false → 0 < x ∨ x < 0
  lt_of_sub_pos {x y : α} : 0 < x - y → y < x
  lt_of_sub_neg {x y : α} : x - y < 0 → x < y
  pos_of_div_sqrt {x v : α} : ¬ v ≤ 0 → 0 < x / Numeric.sqrt v → 0 < x
  neg_of_div_sqrt {x v : α} : ¬ v ≤ 0 → x / Numeric.sqrt v < 0 → x < 0
  /-- The sign of a number as a number; that of zero does not matter. -/
  signum_pos_iff {x : α} : (x == 0) = false → (0 < Numeric.signum x ↔ 0 < x)
  signum_neg_iff {x : α} : (x == 0) = false → (Numeric.signum x < 0 ↔ x < 0)

namespace Double

open Float.Model UnpackedFloat

variable {s : Sign} {u v : UnpackedFloat}

/-- The sign of a double in parts; an undefined one has none. -/
def signOf : UnpackedFloat → Option Sign
  | .notANumber => none
  | .infinity s | .zero s | .finite s _ _ _ => some s

/-- A double in parts lies strictly on one side of zero. -/
inductive Points (s : Sign) : UnpackedFloat → Prop
  | infinity : Points s (.infinity s)
  | finite {m : Nat} {e : Int} {hm : 0 < m} : Points s (.finite s m e hm)

theorem Points.signOf_eq (h : Points s u) : signOf u = some s := by
  cases h <;> rfl

/-- A signed double other than zero lies on the side of its sign. -/
theorem points_of_signOf (h : signOf u = some s) (hzero : u ≠ .zero s) : Points s u := by
  cases u with
  | notANumber => cases h
  | infinity s' =>
      obtain rfl := Option.some.inj h
      exact .infinity
  | zero s' =>
      obtain rfl := Option.some.inj h
      exact absurd rfl hzero
  | finite s' m e hm =>
      obtain rfl := Option.some.inj h
      exact .finite

/-! ### Packing -/

theorem unpackSign_packComponents (e : BitVec 11) (m : BitVec 52) :
    unpackSign (packComponents Format.binary64 s e m) = s.toBitVec := by
  -- the bit of the sign stands above those of the exponent and the mantissa
  rw [unpackSign, packComponents, BitVec.extractLsb, BitVec.extractLsb'_append_eq_of_le (by decide),
    BitVec.extractLsb'_append_eq_of_le (by decide)]
  cases s <;> rfl

theorem unpackSign_pack (h : signOf u = some s) :
    unpackSign (UnpackedFloat.pack Format.binary64 u) = s.toBitVec := by
  cases u with
  | notANumber => cases h
  | infinity s' | zero s' =>
      obtain rfl := Option.some.inj h
      exact unpackSign_packComponents _ _
  | finite s' m e hm =>
      obtain rfl := Option.some.inj h
      rw [UnpackedFloat.pack]
      dsimp only
      split
      · exact unpackSign_packComponents _ _
      · split <;> exact unpackSign_packComponents _ _

theorem ofBitVec_toBitVec : Sign.ofBitVec s.toBitVec = s := by
  cases s <;> rfl

theorem toBitVec_ofBitVec (b : BitVec 1) : (Sign.ofBitVec b).toBitVec = b := by
  revert b
  decide

theorem toNat_lt_iff_unpackSign (b : BitVec 64) :
    b.toNat < 2 ^ 63 ↔ @unpackSign Format.binary64 b = 0#1 := by
  change _ ↔ b.extractLsb' 63 1 = 0#1
  rw [← BitVec.toNat_inj, BitVec.extractLsb'_toNat, Nat.shiftRight_eq_div_pow]
  have := b.isLt
  simp only [BitVec.toNat_ofNat]
  omega

theorem signOf_unpack {b : BitVec 64}
    (h : signOf (UnpackedFloat.unpack Format.binary64 b) = some s) :
    Sign.ofBitVec (@unpackSign Format.binary64 b) = s := by
  rw [UnpackedFloat.unpack] at h
  dsimp only at h
  split at h
  · split at h
    · exact Option.some.inj h
    · cases h
  · split at h
    · split at h <;> exact Option.some.inj h
    · exact Option.some.inj h

theorem unpack_packedZero :
    UnpackedFloat.unpack Format.binary64 (packedZero Format.binary64 s) = .zero s := by
  cases s <;> rfl

/-- Packing keeps the sign. -/
theorem signOf_of_pack (h : signOf (unpack (pack u)) = some s) : signOf u = some s := by
  cases hu : signOf u with
  | none =>
      cases u with
      | notANumber => cases h
      | _ => cases hu
  | some s' =>
      have hs := signOf_unpack h
      change Sign.ofBitVec (unpackSign (UnpackedFloat.pack Format.binary64 u)) = s at hs
      rw [unpackSign_pack hu, ofBitVec_toBitVec] at hs
      rw [hs]

/-- Packing keeps the side of zero. -/
theorem points_of_pack (h : Points s (unpack (pack u))) : Points s u := by
  refine points_of_signOf (signOf_of_pack h.signOf_eq) ?_
  rintro rfl
  change Points s (UnpackedFloat.unpack _ (packedZero _ s)) at h
  rw [unpack_packedZero] at h
  cases h

/-! ### Comparing -/

theorem zero_compare_eq_lt :
    (UnpackedFloat.zero .positive).compare u = some .lt ↔ Points .positive u := by
  constructor
  · intro h
    rcases u with (_ | _) | _ | _ | ⟨_ | _, _, _, _⟩ <;>
      first | exact .infinity | exact .finite | cases h
  · rintro (_ | _) <;> rfl

theorem compare_zero_eq_lt :
    u.compare (UnpackedFloat.zero .positive) = some .lt ↔ Points .negative u := by
  constructor
  · intro h
    rcases u with (_ | _) | _ | _ | ⟨_ | _, _, _, _⟩ <;>
      first | exact .infinity | exact .finite | cases h
  · rintro (_ | _) <;> rfl

/-- A mantissa has at most the bits that the format has, and uses them all unless the exponent is
the least one. -/
structure Canonical (m : Nat) (e : Int) : Prop where
  lt : m < 2 ^ 53
  le : -1074 ≤ e
  full : 2 ^ 52 ≤ m ∨ e = -1074

theorem canonical_of_unpack {b : BitVec 64} {m : Nat} {e : Int} {hm : 0 < m}
    (h : UnpackedFloat.unpack Format.binary64 b = .finite s m e hm) : Canonical m e := by
  rw [UnpackedFloat.unpack] at h
  dsimp only at h
  split at h
  · split at h <;> cases h
  · split at h
    · split at h
      · cases h
      · rename_i hexponent hmantissa
        injection h with _ hm he
        rw [hexponent] at he
        have hlt := (@unpackMantissa Format.binary64 b).isLt
        change _ < 2 ^ 52 at hlt
        change (0 - (1023 + 52) + 1 : Int) = e at he
        exact ⟨by omega, by omega, .inr (by omega)⟩
    · rename_i hexponent
      injection h with _ hm he
      have hlt := (@unpackMantissa Format.binary64 b).isLt
      change _ < 2 ^ 52 at hlt
      have hpos : 0 < (@unpackExponent Format.binary64 b).toNat :=
        Nat.pos_of_ne_zero fun hzero => hexponent (BitVec.eq_of_toNat_eq hzero)
      change ((@unpackExponent Format.binary64 b).toNat - (1023 + 52) : Int) = e at he
      -- the bit before the mantissa is set
      rw [BitVec.toNat_append, ← Nat.shiftLeft_add_eq_or_of_lt hlt] at hm
      change 1 <<< 52 + _ = m at hm
      rw [Nat.shiftLeft_eq] at hm
      exact ⟨by omega, by omega, .inl (by omega)⟩

/-- Of two canonical doubles the one of the greater exponent is greater. -/
theorem compare_eq_lt {m m' : Nat} {e e' : Int} (h : Canonical m e) (h' : Canonical m' e')
    (hlt : m <<< (e - min e e').toNat < m' <<< (e' - min e e').toNat) :
    (compare e e').then (compare m m') = .lt := by
  rw [Ordering.then_eq_lt, Int.compare_eq_lt, Int.compare_eq_eq, Nat.compare_eq_lt]
  rw [Nat.shiftLeft_eq, Nat.shiftLeft_eq] at hlt
  rcases Int.lt_trichotomy e e' with he | rfl | he
  · exact .inl he
  · simpa using hlt
  · -- the mantissa of the greater exponent uses all of its bits, and is shifted
    have hfull : 2 ^ 52 ≤ m := h.full.resolve_right (by have := h'.le; omega)
    have hshift : 2 ≤ 2 ^ (e - min e e').toNat :=
      Nat.le_self_pow (n := (e - min e e').toNat) (by omega) 2
    have hnone : (e' - min e e').toNat = 0 := by omega
    have hgreat := Nat.mul_le_mul hfull hshift
    rw [hnone, Nat.pow_zero, Nat.mul_one] at hlt
    have := h'.lt
    omega

theorem compare_eq_gt {m m' : Nat} {e e' : Int} (h : Canonical m e) (h' : Canonical m' e')
    (hlt : m' <<< (e' - min e e').toNat < m <<< (e - min e e').toNat) :
    (compare e e').then (compare m m') = .gt := by
  rw [Int.min_comm] at hlt
  have hswap := congrArg Ordering.swap (compare_eq_lt h' h hlt)
  rwa [Ordering.swap_then, Int.compare_swap, Nat.compare_swap] at hswap

theorem sign_compare_swap (s s' : Sign) : (compare s s').swap = compare s' s := by
  cases s <;> cases s' <;> rfl

/-- Comparing the other way around gives the opposite answer. -/
theorem compare_swap (u v : UnpackedFloat) : (u.compare v).map Ordering.swap = v.compare u := by
  rcases u with (_ | _) | _ | _ | ⟨_ | _, _, _, _⟩ <;>
    rcases v with (_ | _) | _ | _ | ⟨_ | _, _, _, _⟩ <;>
      simp [UnpackedFloat.compare, Ordering.swap_then, Int.compare_swap, Nat.compare_swap,
        sign_compare_swap]

/-! ### Arithmetic -/

theorem signOf_roundWithAccuracy (m : Nat) (e : Int) (acc : Accuracy) :
    signOf (UnpackedFloat.roundWithAccuracy Format.binary64 s m e acc) = some s := by
  rw [UnpackedFloat.roundWithAccuracy]
  dsimp only
  split <;> rfl

theorem signOf_round (m : Nat) (e : Int) :
    signOf (UnpackedFloat.round Format.binary64 s m e) = some s :=
  signOf_roundWithAccuracy _ _ _

theorem Points.eq_of_signOf {s' : Sign} (h : Points s u) (h' : signOf u = some s') : s = s' :=
  Option.some.inj (h.signOf_eq.symm.trans h')

/-- A rounded integer lies on the side of zero that the integer lies on. -/
theorem points_normalize {k e : Int} {z : Sign}
    (h : Points s (UnpackedFloat.normalize Format.binary64 k e z)) : 0 < s.apply k := by
  rw [UnpackedFloat.normalize] at h
  split at h
  · rename_i hk
    rw [h.eq_of_signOf (signOf_round _ _)]
    rw [Int.compare_eq_lt] at hk
    exact Int.neg_pos_of_neg hk
  · cases h
  · rename_i hk
    rw [h.eq_of_signOf (signOf_round _ _)]
    exact Int.compare_eq_gt.mp hk

/-- The doubles in parts that have a packed form. -/
def Represented (u : UnpackedFloat) : Prop :=
  ∃ b : BitVec 64, UnpackedFloat.unpack Format.binary64 b = u

/-- How the first part of a difference compares to the second one, by the sign of the difference. -/
def orderOf : Sign → Ordering
  | .positive => .gt
  | .negative => .lt

theorem compare_finite {s₁ s₂ : Sign} {m₁ m₂ : Nat} {e₁ e₂ : Int} {hm₁ : 0 < m₁} {hm₂ : 0 < m₂}
    (h₁ : Canonical m₁ e₁) (h₂ : Canonical m₂ e₂)
    (h : 0 < s.apply (s₁.apply (m₁ <<< (e₁ - min e₁ e₂).toNat : Nat)
      - s₂.apply (m₂ <<< (e₂ - min e₁ e₂).toNat : Nat))) :
    (UnpackedFloat.finite s₁ m₁ e₁ hm₁).compare (.finite s₂ m₂ e₂ hm₂) = some (orderOf s) := by
  have hlt := compare_eq_lt h₁ h₂
  have hgt := compare_eq_gt h₁ h₂
  generalize m₁ <<< (e₁ - min e₁ e₂).toNat = k₁ at *
  generalize m₂ <<< (e₂ - min e₁ e₂).toNat = k₂ at *
  -- magnitudes matter only between numbers on the same side of zero
  cases s <;> cases s₁ <;> cases s₂ <;> simp only [Sign.apply] at h <;>
    simp only [UnpackedFloat.compare, orderOf]
  case negative.negative.negative => rw [hgt (by omega)]; rfl
  case negative.positive.positive => rw [hlt (by omega)]
  case positive.negative.negative => rw [hlt (by omega)]; rfl
  case positive.positive.positive => rw [hgt (by omega)]
  all_goals omega

/-- A difference lies on the side of zero that the order of its parts says. -/
theorem compare_of_points_sub (hu : Represented u) (hv : Represented v)
    (h : Points s (UnpackedFloat.sub Format.binary64 u v)) : u.compare v = some (orderOf s) := by
  obtain ⟨bu, hu⟩ := hu
  obtain ⟨bv, hv⟩ := hv
  cases u with
  | notANumber => cases h
  | infinity s₁ =>
      cases v with
      | infinity s₂ => cases s₁ <;> cases s₂ <;> cases h <;> rfl
      | notANumber => cases h
      | zero s₂ | finite s₂ m₂ e₂ hm₂ => cases h; cases s <;> rfl
  | zero s₁ =>
      cases v with
      | notANumber => cases h
      | zero s₂ => cases s₁ <;> cases s₂ <;> cases h
      | infinity s₂ | finite s₂ m₂ e₂ hm₂ => cases h; cases s₂ <;> rfl
  | finite s₁ m₁ e₁ hm₁ =>
      cases v with
      | notANumber => cases h
      | infinity s₂ => cases h; cases s₂ <;> rfl
      | zero s₂ => cases h; cases s <;> rfl
      | finite s₂ m₂ e₂ hm₂ =>
          exact compare_finite (canonical_of_unpack hu) (canonical_of_unpack hv)
            (points_normalize h)

/-- The sign of a quotient is that of its parts. -/
theorem points_of_points_div (h : Points s (UnpackedFloat.div Format.binary64 u v)) :
    ∃ s₁ s₂, Points s₁ u ∧ signOf v = some s₂ ∧ s = s₁ / s₂ := by
  cases u with
  | notANumber => cases h
  | infinity s₁ =>
      cases v with
      | notANumber | infinity => cases h
      | zero s₂ | finite s₂ m₂ e₂ hm₂ => cases h; exact ⟨s₁, s₂, .infinity, rfl, rfl⟩
  | zero s₁ => cases v <;> cases h
  | finite s₁ m₁ e₁ hm₁ =>
      cases v with
      | notANumber | infinity => cases h
      | zero s₂ => cases h; exact ⟨s₁, s₂, .finite, rfl, rfl⟩
      | finite s₂ m₂ e₂ hm₂ =>
          exact ⟨s₁, s₂, .finite, rfl, h.eq_of_signOf (signOf_roundWithAccuracy _ _ _)⟩

theorem eq_zero_of_signOf_sqrt
    (h : signOf (UnpackedFloat.sqrt Format.binary64 u) = some .negative) :
    u = .zero .negative := by
  cases u with
  | notANumber => cases h
  | infinity s' => cases s' <;> cases h
  | zero s' => cases h; rfl
  | finite s' m e hm =>
      cases s' with
      | negative => cases h
      | positive => cases (signOf_roundWithAccuracy _ _ _).symm.trans h

/-! ### Floating point -/

section

variable {x y : Float}

theorem lt_iff : x < y ↔ x.toModel.unpack.compare y.toModel.unpack = some .lt := by
  change decide (x.toModel < y.toModel) = true ↔ _
  rw [decide_eq_true_iff]
  change UnpackedFloat.lt _ _ = true ↔ _
  rw [UnpackedFloat.lt, beq_iff_eq]

theorem zero_unpack : (Float.ofNat 0).toModel.unpack = .zero .positive := by
  have hbits : (Float.ofNat 0).toModel.toBits.toBitVec = packedZero Format.binary64 .positive := by
    decide +kernel
  rw [Float.Model.unpack, hbits, unpack_packedZero]

theorem pos_iff : Float.ofNat 0 < x ↔ Points .positive x.toModel.unpack := by
  rw [lt_iff, zero_unpack, zero_compare_eq_lt]

theorem neg_iff : x < Float.ofNat 0 ↔ Points .negative x.toModel.unpack := by
  rw [lt_iff, zero_unpack, compare_zero_eq_lt]

theorem represented_unpack (x : Float) : Represented x.toModel.unpack :=
  ⟨_, rfl⟩

theorem lt_asymm (h : x < y) : ¬ y < x := by
  rw [lt_iff] at h ⊢
  rw [← compare_swap, h]
  decide

theorem lt_of_sub_pos (h : Float.ofNat 0 < x - y) : y < x := by
  rw [pos_iff] at h
  rw [lt_iff, ← compare_swap,
    compare_of_points_sub (represented_unpack x) (represented_unpack y) (points_of_pack h)]
  rfl

theorem lt_of_sub_neg (h : x - y < Float.ofNat 0) : x < y := by
  rw [neg_iff] at h
  rw [lt_iff,
    compare_of_points_sub (represented_unpack x) (represented_unpack y) (points_of_pack h)]
  rfl

theorem points_of_points_div_sqrt (hpos : ¬ y ≤ Float.ofNat 0)
    (h : Points s (x / y.sqrt).toModel.unpack) : Points s x.toModel.unpack := by
  obtain ⟨s₁, s₂, hx, hroot, rfl⟩ := points_of_points_div (points_of_pack h)
  cases s₂ with
  | positive => cases s₁ <;> exact hx
  | negative =>
      -- only the root of the negative zero is negative
      have hzero := eq_zero_of_signOf_sqrt (signOf_of_pack hroot)
      refine absurd ?_ hpos
      change decide (y.toModel ≤ (Float.ofNat 0).toModel) = true
      rw [decide_eq_true_iff]
      change UnpackedFloat.le y.toModel.unpack (Float.ofNat 0).toModel.unpack = true
      rw [hzero, zero_unpack]
      rfl

/-- A number other than zero lies on a side of it. -/
theorem exists_points (hnan : x.isNaN = false) (hzero : (x == Float.ofNat 0) = false) :
    ∃ s, Points s x.toModel.unpack := by
  change UnpackedFloat.isNaN x.toModel.unpack = false at hnan
  change (x.toModel.unpack.compare (Float.ofNat 0).toModel.unpack == some .eq) = false at hzero
  rw [zero_unpack] at hzero
  generalize x.toModel.unpack = u at hnan hzero
  cases u with
  | notANumber => cases hnan
  | infinity s => exact ⟨s, .infinity⟩
  | zero s => cases hzero
  | finite s m e hm => exact ⟨s, .finite⟩

theorem signum_of_isNaN (hnan : x.isNaN = true) : signum x = x := by
  rw [signum, if_pos hnan]

/-- The sign of a number is that of its sign bit, which zero has too. -/
theorem zero_lt_signum_iff (hnan : x.isNaN = false) :
    Float.ofNat 0 < signum x ↔ x.toBits < 0x8000000000000000 := by
  rw [signum, if_neg (Bool.eq_false_iff.1 hnan)]
  split
  · rename_i hbit
    exact iff_of_true (by decide +kernel) hbit
  · rename_i hbit
    exact iff_of_false (by decide +kernel) hbit

theorem signum_lt_zero_iff (hnan : x.isNaN = false) :
    signum x < Float.ofNat 0 ↔ ¬ x.toBits < 0x8000000000000000 := by
  rw [signum, if_neg (Bool.eq_false_iff.1 hnan)]
  split
  · rename_i hbit
    exact iff_of_false (by decide +kernel) (not_not.2 hbit)
  · rename_i hbit
    exact iff_of_true (by decide +kernel) hbit

theorem signum_of_points (h : Points s x.toModel.unpack) :
    signum x = if s.toBitVec = 0#1 then 1 else -1 := by
  have hnan : x.isNaN = false := by
    change UnpackedFloat.isNaN x.toModel.unpack = false
    generalize x.toModel.unpack = u at h
    cases h <;> rfl
  have hbit : x.toBits < 0x8000000000000000 ↔ s.toBitVec = 0#1 := by
    rw [← signOf_unpack h.signOf_eq, toBitVec_ofBitVec]
    exact toNat_lt_iff_unpackSign x.toModel.toBits.toBitVec
  simp only [signum, hnan, hbit, Bool.false_eq_true, if_false]

theorem signum_pos_iff (hzero : (x == Float.ofNat 0) = false) :
    Float.ofNat 0 < signum x ↔ Float.ofNat 0 < x := by
  cases hnan : x.isNaN with
  | true => rw [signum_of_isNaN hnan]
  | false =>
      obtain ⟨s, hs⟩ := exists_points hnan hzero
      rw [signum_of_points hs, pos_iff (x := x)]
      cases s with
      | positive => exact iff_of_true (by decide +kernel) hs
      | negative =>
          refine iff_of_false (by decide +kernel) fun h => ?_
          cases h.eq_of_signOf hs.signOf_eq

theorem signum_neg_iff (hzero : (x == Float.ofNat 0) = false) :
    signum x < Float.ofNat 0 ↔ x < Float.ofNat 0 := by
  cases hnan : x.isNaN with
  | true => rw [signum_of_isNaN hnan]
  | false =>
      obtain ⟨s, hs⟩ := exists_points hnan hzero
      rw [signum_of_points hs, neg_iff (x := x)]
      cases s with
      | positive =>
          refine iff_of_false (by decide +kernel) fun h => ?_
          cases h.eq_of_signOf hs.signOf_eq
      | negative => exact iff_of_true (by decide +kernel) hs

theorem isNaN_of_isFinite (h : x.isFinite = true) : x.isNaN = false := by
  change UnpackedFloat.isFinite x.toModel.unpack = true at h
  change UnpackedFloat.isNaN x.toModel.unpack = false
  generalize x.toModel.unpack = u at h
  cases u <;> first | rfl | cases h

theorem pos_or_neg (hfinite : x.isFinite = true) (hzero : (x == Float.ofNat 0) = false) :
    Float.ofNat 0 < x ∨ x < Float.ofNat 0 := by
  obtain ⟨s, hs⟩ := exists_points (isNaN_of_isFinite hfinite) hzero
  cases s with
  | positive => exact .inl (pos_iff.mpr hs)
  | negative => exact .inr (neg_iff.mpr hs)

end

end Double

open Double in
instance : SignFaithful Float where
  lt_asymm := lt_asymm
  pos_or_neg := pos_or_neg
  lt_of_sub_pos := lt_of_sub_pos
  lt_of_sub_neg := lt_of_sub_neg
  pos_of_div_sqrt hpos h := pos_iff.mpr (points_of_points_div_sqrt hpos (pos_iff.mp h))
  neg_of_div_sqrt hpos h := neg_iff.mpr (points_of_points_div_sqrt hpos (neg_iff.mp h))
  signum_pos_iff := signum_pos_iff
  signum_neg_iff := signum_neg_iff

end StudyAnalysis
