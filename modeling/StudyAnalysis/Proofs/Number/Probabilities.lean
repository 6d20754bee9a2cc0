/-
**Probabilities as computed numbers.**

A p-value that is taken towards a prediction is halved, and the half may be taken from one.  Both
steps are rounded, and all that is asked of a type of numbers is that they do not lead out of the
unit interval; this is collected in `ProbabilityFaithful`.  Doubles have these laws because rounding
is monotone and keeps zero and one.

Main definitions:

* `StudyAnalysis.IsProbability` — a number lies in the unit interval;
* `StudyAnalysis.ProbabilityFaithful` — halves and complements of probabilities are probabilities.

Main results:

* `StudyAnalysis.Double.upward_sub` — **the difference of two doubles is the nearest double**;
* `StudyAnalysis.Double.isProbability_iff` — the doubles in the unit interval, by their sizes.
-/

import Mathlib
import StudyAnalysis.Proofs.Number.Quotients

set_option autoImplicit false
set_option relaxedAutoImplicit false

namespace StudyAnalysis

/-- A number lies in the unit interval; one that is undefined does not. -/
def IsProbability {α : Type} [Numeric α] (p : α) : Prop :=
  0 ≤ p ∧ p ≤ 1

/-- Numbers whose probabilities stay probabilities if they are halved or taken from one. -/
class ProbabilityFaithful (α : Type) [Numeric α] : Prop where
  half {p : α} : IsProbability p → IsProbability (p / 2)
  complement {p : α} : IsProbability p → IsProbability (1 - p)

namespace Double

open Float.Model UnpackedFloat

/-! ### The difference of two doubles -/

section Differences

variable {m : ℕ} {e : ℤ}

/-- A mantissa that is shifted to a lower exponent keeps its value. -/
theorem shiftLeft_mul_zpow (m : ℕ) {e low : ℤ} (h : low ≤ e) :
    ((m <<< (e - low).toNat : ℕ) : ℚ) * 2 ^ low = m * 2 ^ e := by
  obtain ⟨k, hk⟩ : ∃ k : ℕ, e - low = k := ⟨(e - low).toNat, by omega⟩
  have he : e = k + low := by omega
  rw [hk, Int.toNat_natCast, he, Nat.shiftLeft_eq, zpow_add₀ two_ne_zero, zpow_natCast]
  push_cast
  ring

theorem log2_shiftLeft (hm : 0 < m) (k : ℕ) : (m <<< k).log2 = m.log2 + k := by
  obtain ⟨hle, hlt⟩ := (Nat.log2_eq_iff hm.ne').1 rfl
  rw [Nat.shiftLeft_eq, Nat.log2_eq_iff (by positivity), Nat.add_right_comm, Nat.pow_add,
    Nat.pow_add 2 (m.log2 + 1)]
  exact ⟨Nat.mul_le_mul_right _ hle, Nat.mul_lt_mul_of_pos_right hlt (by positivity)⟩

/-- **A whole number times a power of two is rounded to the nearest double.** -/
theorem upward_round_exact (hm : 0 < m) :
    Upward (unpack (pack (UnpackedFloat.round Format.binary64 .positive m e))) ∧
      size (unpack (pack (UnpackedFloat.round Format.binary64 .positive m e))) =
        cap (nearest (m * 2 ^ e)) := by
  rw [UnpackedFloat.round]
  dsimp only [decreaseExponent]
  generalize htarget : Format.binary64.targetExponent (totalExponent m e) = target
  obtain ⟨low, hlow, hle⟩ : ∃ low : ℤ, low = min e target ∧ low ≤ e := ⟨_, rfl, min_le_left _ _⟩
  have hshift : (e - target).toNat = (e - low).toNat := by omega
  have hexponent : e - ((e - low).toNat : ℤ) = low := by omega
  rw [hshift, hexponent]
  have hpos : 0 < m <<< (e - low).toNat := by
    rw [Nat.shiftLeft_eq]
    positivity
  have hready : Ready (m <<< (e - low).toNat) low := by
    -- shifting does not change where the number is rounded
    rw [Ready, totalExponent, log2_shiftLeft hm]
    rw [totalExponent] at htarget
    have hsame : ((m.log2 + (e - low).toNat : ℕ) : ℤ) + 1 + low = m.log2 + 1 + e := by omega
    rw [hsame, htarget]
    omega
  have hexact : Locates .exact (m <<< (e - low).toNat) (m <<< (e - low).toNat : ℕ) := rfl
  have hround := upward_round hexact (Nat.cast_pos.2 hpos) hready
  rwa [shiftLeft_mul_zpow m hle] at hround

theorem upward_normalize (m : ℕ) (e : ℤ) :
    Upward (unpack (pack (UnpackedFloat.normalize Format.binary64 m e .positive))) ∧
      size (unpack (pack (UnpackedFloat.normalize Format.binary64 m e .positive))) =
        cap (nearest (m * 2 ^ e)) := by
  rw [UnpackedFloat.normalize]
  rcases Nat.eq_zero_or_pos m with rfl | hm
  · have hvalue : ((0 : ℕ) : ℚ) * 2 ^ e = 0 := by rw [Nat.cast_zero, zero_mul]
    rw [hvalue, nearest_zero, cap_zero]
    exact upward_pack_zero .positive
  · have hcompare : compare (m : ℤ) 0 = .gt := Int.compare_eq_gt.2 (by omega)
    rw [hcompare]
    exact upward_round_exact hm

/-- **The difference of two doubles is the nearest double**, if they are not below zero and the
greater one comes first. -/
theorem upward_sub {u v : UnpackedFloat} {a b : ℚ} (hu : Upward u) (hv : Upward v)
    (ha : size u = a) (hb : size v = b) (hle : b ≤ a) :
    Upward (unpack (pack (UnpackedFloat.sub Format.binary64 u v))) ∧
      size (unpack (pack (UnpackedFloat.sub Format.binary64 u v))) = cap (nearest (a - b)) := by
  cases hu with
  | infinity => cases ha
  | zero s =>
      obtain rfl : (0 : ℚ) = a := WithTop.coe_injective ha
      cases hv with
      | infinity => cases hb
      | zero s' =>
          obtain rfl : (0 : ℚ) = b := WithTop.coe_injective hb
          rw [sub_zero, nearest_zero, cap_zero]
          rw [UnpackedFloat.sub]
          split <;> exact upward_pack_zero _
      | @finite m₂ e₂ hm₂ h₂ =>
          obtain rfl : (m₂ * 2 ^ e₂ : ℚ) = b := WithTop.coe_injective hb
          exact absurd hle (not_le.2 (by positivity))
  | @finite m₁ e₁ hm₁ h₁ =>
      obtain rfl : (m₁ * 2 ^ e₁ : ℚ) = a := WithTop.coe_injective ha
      cases hv with
      | infinity => cases hb
      | zero s' =>
          obtain rfl : (0 : ℚ) = b := WithTop.coe_injective hb
          rw [sub_zero, nearest_of_canonical h₁ hm₁]
          exact upward_pack h₁
      | @finite m₂ e₂ hm₂ h₂ =>
          obtain rfl : (m₂ * 2 ^ e₂ : ℚ) = b := WithTop.coe_injective hb
          rw [UnpackedFloat.sub]
          dsimp only [decreaseExponent, Sign.apply]
          -- at the lower of the two exponents the difference is one of whole numbers
          generalize hlow : min e₁ e₂ = low
          have hvalue₁ := shiftLeft_mul_zpow m₁ (hlow ▸ min_le_left e₁ e₂)
          have hvalue₂ := shiftLeft_mul_zpow m₂ (hlow ▸ min_le_right e₁ e₂)
          rw [← hvalue₁, ← hvalue₂] at hle ⊢
          have hpow : (0 : ℚ) < 2 ^ low := by positivity
          have hmantissa := Nat.cast_le.1 (le_of_mul_le_mul_right hle hpow)
          rw [← Nat.cast_sub hmantissa, ← sub_mul, ← Nat.cast_sub hmantissa]
          exact upward_normalize _ _

end Differences

/-! ### The unit interval -/

section UnitInterval

/-- Doubles that are not below zero have the sizes that their places say. -/
theorem size_le_of_place_le {u v : UnpackedFloat} (hu : Upward u) (hv : Upward v)
    (h : place u ≤ place v) : size u ≤ size v := by
  by_contra hgt
  have hplace : place u = place v := le_antisymm h (place_le_of_size_le hv hu (not_le.1 hgt).le)
  refine hgt (le_of_eq ?_)
  cases hu <;> cases hv <;> simp_all [place, size, Sign.apply]

variable {x p : Float}

theorem size_one : size (Float.ofNat 1).toModel.unpack = 1 := by
  rw [(size_ofNat one_pos).2, nearest_natCast one_pos (by decide), Nat.cast_one, cap_one]

/-- **The doubles in the unit interval** are those that are not below zero and of size at most
one. -/
theorem isProbability_iff :
    IsProbability p ↔ Upward p.toModel.unpack ∧ size p.toModel.unpack ≤ 1 := by
  have hzero : Upward (Float.ofNat 0).toModel.unpack := by
    rw [zero_unpack]
    exact .zero _
  obtain ⟨hone, -⟩ := size_ofNat one_pos
  have hprobability : IsProbability p ↔ Float.ofNat 0 ≤ p ∧ p ≤ Float.ofNat 1 := Iff.rfl
  rw [hprobability, le_iff, le_iff, le_iff_place, le_iff_place, ← size_one]
  constructor
  · rintro ⟨⟨-, hnumber, hlow⟩, -, -, hhigh⟩
    have hneg : ¬ p < Float.ofNat 0 := fun hlt => (lt_iff_place.1 hlt).2.2.not_ge hlow
    obtain ⟨hup, -⟩ := upward_of_not_neg hnumber hneg
    exact ⟨hup, size_le_of_place_le hup hone hhigh⟩
  · rintro ⟨hup, hle⟩
    have hlow : size (Float.ofNat 0).toModel.unpack ≤ size p.toModel.unpack := by
      rw [zero_unpack]
      exact hup.size_nonneg
    exact ⟨⟨hzero.ne_notANumber, hup.ne_notANumber, place_le_of_size_le hzero hup hlow⟩,
      hup.ne_notANumber, hone.ne_notANumber, place_le_of_size_le hup hone hle⟩

theorem isProbability_half (h : IsProbability p) : IsProbability (p / Float.ofNat 2) := by
  obtain ⟨hup, hle⟩ := isProbability_iff.1 h
  have hfinite : size p.toModel.unpack ≠ ⊤ := ne_top_of_le_ne_top WithTop.one_ne_top hle
  have hneg : ¬ p < Float.ofNat 0 := fun hlt =>
    (lt_iff_place.1 hlt).2.2.not_ge (le_iff_place.1 (le_iff.1 h.1)).2.2
  obtain ⟨hhalf, -⟩ := upward_quotient hup hfinite two_pos
  have hplace := place_quotient_le hneg hup.ne_notANumber hfinite two_pos
  exact isProbability_iff.2 ⟨hhalf, (size_le_of_place_le hhalf hup hplace).trans hle⟩

theorem isProbability_complement (h : IsProbability p) : IsProbability (Float.ofNat 1 - p) := by
  obtain ⟨hup, hle⟩ := isProbability_iff.1 h
  obtain ⟨hone, -⟩ := size_ofNat one_pos
  rw [← WithTop.coe_one] at hle
  obtain ⟨b, hb, hb'⟩ := WithTop.le_coe_iff.1 hle
  have hnonneg : 0 ≤ b := WithTop.coe_le_coe.1 (hb ▸ hup.size_nonneg)
  obtain ⟨hdifference, hsize⟩ := upward_sub hone hup size_one hb hb'
  refine isProbability_iff.2 ⟨hdifference, hsize.trans_le ?_⟩
  -- the exact difference is at most one, and rounding keeps one
  have hnearest : nearest (1 - b) ≤ 1 := by
    rcases hb'.eq_or_lt with rfl | hlt
    · rw [sub_self, nearest_zero]
      exact zero_le_one
    · have hmono := nearest_mono (sub_pos.2 hlt) (sub_le_self (1 : ℚ) hnonneg)
      rwa [← Nat.cast_one, nearest_natCast one_pos (by decide), Nat.cast_one] at hmono
  rw [← cap_one]
  exact cap_mono hnearest

end UnitInterval

end Double

open Double in
instance : ProbabilityFaithful Float where
  half := isProbability_half
  complement := isProbability_complement

end StudyAnalysis
