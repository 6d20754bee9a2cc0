/-
**Rounding is monotone.**

Every arithmetic operation on doubles computes an exact result first, as a mantissa with what is known
of the digits that it leaves out, and rounds it to the nearest double, and to the even one of two
that are equally near.  So what is computed from nonnegative numbers is a function of the exact
result, and that function is monotone.

An exact result has an exponent for its rounding, the one by which its mantissa uses all of its bits
unless it is the least one.  Of two results with the same exponent the mantissas are rounded on one
grid.  If the exponents differ, a power of two lies between the two results, which rounding does not
cross.

Main definitions:

* `StudyAnalysis.Double.Locates` — what a mantissa and its residual bits say about a number;
* `StudyAnalysis.Double.roundEven` — the nearest count, the even one of two;
* `StudyAnalysis.Double.nearest` — the nearest number with the mantissa and the exponent of a double;
* `StudyAnalysis.Double.size` — the absolute value of a double in parts.

Main results:

* `StudyAnalysis.Double.Locates.roundToNearestEven_eq` — residual bits suffice to round;
* `StudyAnalysis.Double.roundEven_mono`, `StudyAnalysis.Double.nearest_mono` — **rounding is
  monotone**;
* `StudyAnalysis.Double.nearest_of_canonical` — rounding keeps the doubles;
* `StudyAnalysis.Double.unpack_pack_canonical` — packing keeps the doubles;
* `StudyAnalysis.Double.upward_round` — **what is rounded and packed is the nearest double**;
* `StudyAnalysis.Double.place_le_of_size_le` — doubles that are not below zero compare as their sizes
  do.
-/

import Mathlib
import StudyAnalysis.Proofs.Number.Counts

set_option autoImplicit false
set_option relaxedAutoImplicit false

namespace StudyAnalysis.Double

open Float.Model UnpackedFloat

/-! ### Residual bits -/

/-- What a mantissa with an accuracy says about a number: it is the mantissa, or it lies between the
mantissa and the next count, on a known side of the middle. -/
def Locates : Accuracy → ℕ → ℚ → Prop
  | .exact, m, x => x = m
  | .inexact .lt, m, x => m < x ∧ x < m + 1 / 2
  | .inexact .eq, m, x => x = m + 1 / 2
  | .inexact .gt, m, x => m + 1 / 2 < x ∧ x < m + 1

namespace Locates

variable {acc acc' : Accuracy} {m m' : ℕ} {x x' : ℚ} {em : ExtendedMantissa}

theorem le (h : Locates acc m x) : (m : ℚ) ≤ x := by
  rcases acc with _ | _ | _ | _ <;> simp only [Locates] at h <;> linarith

theorem lt (h : Locates acc m x) : x < m + 1 := by
  rcases acc with _ | _ | _ | _ <;> simp only [Locates] at h <;> linarith

theorem floor_eq (h : Locates acc m x) : ⌊x⌋₊ = m :=
  (Nat.floor_eq_iff (h.le.trans' (Nat.cast_nonneg m))).2 ⟨h.le, h.lt⟩

/-- The residual bits hold the whole accuracy. -/
theorem ofMantissaAndAccuracy (h : Locates acc m x) :
    Locates (ExtendedMantissa.ofMantissaAndAccuracy m acc).accuracy
      (ExtendedMantissa.ofMantissaAndAccuracy m acc).mantissa x := by
  rcases acc with _ | _ | _ | _ <;> exact h

/-- Shifting the mantissa by one bit halves the number. -/
theorem shiftRightOne (h : Locates em.accuracy em.mantissa x) :
    Locates em.shiftRightOne.accuracy em.shiftRightOne.mantissa (x / 2) := by
  obtain ⟨m, roundBit, stickyBit⟩ := em
  have hm : (m : ℚ) = 2 * (m / 2 : ℕ) + (m % 2 : ℕ) := by
    exact_mod_cast (Nat.div_add_mod m 2).symm
  rcases Nat.mod_two_eq_zero_or_one m with hbit | hbit <;> rw [hbit] at hm <;>
    cases roundBit <;> cases stickyBit <;>
      simp only [ExtendedMantissa.shiftRightOne, ExtendedMantissa.accuracy, Locates, hbit, hm,
        Bool.or_true, Bool.or_false, bne_self_eq_false, Nat.cast_zero,
        Nat.cast_one, Nat.reduceBNe] at h ⊢ <;>
        first | linarith | exact ⟨by linarith, by linarith⟩

theorem shiftRight (h : Locates em.accuracy em.mantissa x) (k : ℕ) :
    Locates (em >>> k).accuracy (em >>> k).mantissa (x / 2 ^ k) := by
  change Locates (Nat.repeat ExtendedMantissa.shiftRightOne k em).accuracy
    (Nat.repeat ExtendedMantissa.shiftRightOne k em).mantissa _
  induction k with
  | zero => simpa [Nat.repeat] using h
  | succ k ih =>
      rw [Nat.repeat, pow_succ, ← div_div]
      exact ih.shiftRightOne

end Locates

/-! ### The nearest count -/

/-- The nearest count, and the even one of two that are equally near. -/
def roundEven (x : ℚ) : ℕ :=
  if x < ⌊x⌋₊ + 1 / 2 then ⌊x⌋₊
  else if x = ⌊x⌋₊ + 1 / 2 then ⌊x⌋₊ + ⌊x⌋₊ % 2
  else ⌊x⌋₊ + 1

/-- **The residual bits suffice to round.** -/
theorem Locates.roundToNearestEven_eq {acc : Accuracy} {m : ℕ} {x : ℚ} (h : Locates acc m x) :
    acc.roundToNearestEven m = roundEven x := by
  rw [roundEven, h.floor_eq]
  rcases acc with _ | _ | _ | _ <;> simp only [Locates] at h
  · rw [if_pos (by linarith)]
    rfl
  · rw [if_pos h.2]
    rfl
  · rw [if_neg h.not_lt, if_pos h]
    rfl
  · rw [if_neg (not_lt.2 h.1.le), if_neg h.1.ne']
    rfl

theorem floor_le_roundEven (x : ℚ) : ⌊x⌋₊ ≤ roundEven x := by
  unfold roundEven
  split
  · exact le_refl _
  · split <;> omega

theorem roundEven_le_floor (x : ℚ) : roundEven x ≤ ⌊x⌋₊ + 1 := by
  unfold roundEven
  split
  · omega
  · split <;> omega

theorem roundEven_natCast (n : ℕ) : roundEven n = n := by
  rw [roundEven, Nat.floor_natCast, if_pos (by linarith)]

/-- **Rounding to a count is monotone.** -/
theorem roundEven_mono {x y : ℚ} (h : x ≤ y) : roundEven x ≤ roundEven y := by
  rcases (Nat.floor_mono h).lt_or_eq with hlt | hfloor
  · exact (roundEven_le_floor x).trans (hlt.trans_le (floor_le_roundEven y))
  -- both lie between the same two counts, and the middle decides
  rw [roundEven, hfloor]
  split
  · exact floor_le_roundEven y
  · rename_i hbelow
    rw [roundEven, if_neg (not_lt.2 ((not_lt.1 hbelow).trans h))]
    split
    · split <;> omega
    · rename_i hmiddle
      have hgreater : (⌊y⌋₊ : ℚ) + 1 / 2 < x := lt_of_le_of_ne (not_lt.1 hbelow) (Ne.symm hmiddle)
      rw [if_neg (hgreater.trans_le h).ne']

/-! ### The nearest double -/

/-- The exponent that a positive number is rounded at: its mantissa uses all bits, unless the exponent
is the least one. -/
def exponentFor (r : ℚ) : ℤ :=
  max (Int.log 2 r - 52) (-1074)

/-- The nearest number that has the mantissa and the exponent of a double, and the one of the even
mantissa of two that are equally near. -/
def nearest (r : ℚ) : ℚ :=
  roundEven (r / 2 ^ exponentFor r) * 2 ^ exponentFor r

variable {r r' : ℚ}

theorem exponentFor_mono (hr : 0 < r) (h : r ≤ r') : exponentFor r ≤ exponentFor r' :=
  max_le_max_right _ (by have := Int.log_mono_right (b := 2) hr h; omega)

/-- The scaled number has no more bits than a mantissa. -/
theorem scaled_lt (r : ℚ) : r / 2 ^ exponentFor r < 2 ^ 53 := by
  rw [div_lt_iff₀ (by positivity), ← zpow_natCast, ← zpow_add₀ two_ne_zero]
  refine (Int.lt_zpow_succ_log_self (b := 2) (by decide) r).trans_le ?_
  refine zpow_le_zpow_right₀ one_le_two ?_
  have := le_max_left (Int.log 2 r - 52) (-1074)
  rw [exponentFor]
  push_cast
  omega

/-- The scaled number has as many bits as a mantissa, unless the exponent is the least one. -/
theorem le_scaled (hr : 0 < r) (he : exponentFor r ≠ -1074) : 2 ^ 52 ≤ r / 2 ^ exponentFor r := by
  have hexponent : exponentFor r = Int.log 2 r - 52 := by
    rw [exponentFor] at he ⊢
    omega
  rw [le_div_iff₀ (by positivity), hexponent, ← zpow_natCast, ← zpow_add₀ two_ne_zero]
  simpa using Int.zpow_log_le_self (b := 2) (by decide) hr

theorem roundEven_scaled_le (r : ℚ) : roundEven (r / 2 ^ exponentFor r) ≤ 2 ^ 53 := by
  have h := roundEven_mono (scaled_lt r).le
  have htop : ((2 : ℚ) ^ 53) = ((2 ^ 53 : ℕ) : ℚ) := by norm_num
  rwa [htop, roundEven_natCast] at h

theorem le_roundEven_scaled (hr : 0 < r) (he : exponentFor r ≠ -1074) :
    2 ^ 52 ≤ roundEven (r / 2 ^ exponentFor r) := by
  have h := roundEven_mono (le_scaled hr he)
  have htop : ((2 : ℚ) ^ 52) = ((2 ^ 52 : ℕ) : ℚ) := by norm_num
  rwa [htop, roundEven_natCast] at h

theorem nearest_nonneg (r : ℚ) : 0 ≤ nearest r := by
  rw [nearest]
  positivity

/-- **Rounding to a double is monotone.** -/
theorem nearest_mono (hr : 0 < r) (h : r ≤ r') : nearest r ≤ nearest r' := by
  have hr' := hr.trans_le h
  rw [nearest, nearest]
  rcases (exponentFor_mono hr h).lt_or_eq with hlt | heq
  · -- a power of two lies between them, with the exponent of the greater one
    have hleast : exponentFor r' ≠ -1074 := by
      have : -1074 ≤ exponentFor r := le_max_right _ _
      omega
    have hle : (roundEven (r / 2 ^ exponentFor r) : ℚ) ≤ 2 ^ 53 := by
      exact_mod_cast roundEven_scaled_le r
    have hge : (2 : ℚ) ^ 52 ≤ roundEven (r' / 2 ^ exponentFor r') := by
      exact_mod_cast le_roundEven_scaled hr' hleast
    calc (roundEven (r / 2 ^ exponentFor r) : ℚ) * 2 ^ exponentFor r
        ≤ 2 ^ 53 * 2 ^ exponentFor r := by gcongr
      _ = 2 ^ 52 * 2 ^ (exponentFor r + 1) := by
          rw [zpow_add_one₀ two_ne_zero]
          ring
      _ ≤ 2 ^ 52 * 2 ^ exponentFor r' := by
          gcongr
          · exact one_le_two
          · exact hlt
      _ ≤ roundEven (r' / 2 ^ exponentFor r') * 2 ^ exponentFor r' := by gcongr
  · rw [heq]
    have hround := roundEven_mono (div_le_div_of_nonneg_right h
      (zpow_nonneg zero_le_two (exponentFor r')))
    gcongr

/-- The exponent of a double is the one that it is rounded at. -/
theorem exponentFor_of_canonical {m : ℕ} {e : ℤ} (h : Canonical m e) (hm : 0 < m) :
    exponentFor (m * 2 ^ e) = e := by
  have hmq : (0 : ℚ) < m := by exact_mod_cast hm
  have hpos : (0 : ℚ) < m * 2 ^ e := by positivity
  have hlog : Int.log 2 ((m : ℚ) * 2 ^ e) < 53 + e := by
    rw [← Int.lt_zpow_iff_log_lt (by decide) hpos, zpow_add₀ (by norm_num)]
    have hlt : (m : ℚ) < 2 ^ 53 := by exact_mod_cast h.lt
    push_cast
    gcongr
    exact_mod_cast hlt
  have hle := h.le
  rw [exponentFor]
  rcases h.full with hfull | rfl
  · have hlog' : 52 + e ≤ Int.log 2 ((m : ℚ) * 2 ^ e) := by
      rw [← Int.zpow_le_iff_le_log (by decide) hpos, zpow_add₀ (by norm_num)]
      have hge : (2 : ℚ) ^ 52 ≤ m := by exact_mod_cast hfull
      push_cast
      gcongr
      exact_mod_cast hge
    omega
  · omega

/-- **Rounding keeps the doubles.** -/
theorem nearest_of_canonical {m : ℕ} {e : ℤ} (h : Canonical m e) (hm : 0 < m) :
    nearest (m * 2 ^ e) = m * 2 ^ e := by
  rw [nearest, exponentFor_of_canonical h hm, mul_div_cancel_right₀ _ (by positivity),
    roundEven_natCast]

/-! ### What is rounded -/

variable {s : Sign} {acc : Accuracy} {m : ℕ} {e : ℤ} {x : ℚ}

/-- A mantissa with an exponent has no bits to spare below the exponent that it is rounded at. -/
def Ready (m : ℕ) (e : ℤ) : Prop :=
  e ≤ Format.binary64.targetExponent (totalExponent m e)

theorem targetExponent_eq (n : ℤ) :
    Format.binary64.targetExponent n = max (n - 53) (-1074) := rfl

/-- The exponent that a mantissa is shifted to is the one that its number is rounded at. -/
theorem targetExponent_of_locates (h : Locates acc m x) (hx : 0 < x) (hready : Ready m e) :
    Format.binary64.targetExponent (totalExponent m e) = exponentFor (x * 2 ^ e) := by
  have hpos : 0 < x * 2 ^ e := by positivity
  rw [Ready, targetExponent_eq, totalExponent] at hready
  rw [targetExponent_eq, totalExponent, exponentFor]
  rcases Nat.eq_zero_or_pos m with rfl | hm
  · -- without a mantissa the number lies below the least exponent
    have hlt : x < 1 := by simpa using h.lt
    have hlog : Int.log 2 (x * 2 ^ e) < e := by
      rw [← Int.lt_zpow_iff_log_lt (by decide) hpos]
      push_cast
      have := mul_lt_mul_of_pos_right hlt (zpow_pos (zero_lt_two' ℚ) e)
      linarith
    simp only [Nat.log2_zero] at hready ⊢
    omega
  · obtain ⟨hle, hlt⟩ := (Nat.log2_eq_iff hm.ne').1 rfl
    have hlow : (2 : ℚ) ^ (m.log2 : ℤ) ≤ x := by
      refine le_trans ?_ h.le
      rw [zpow_natCast]
      exact_mod_cast hle
    have hhigh : x < (2 : ℚ) ^ ((m.log2 : ℤ) + 1) := by
      refine h.lt.trans_le ?_
      rw [← Nat.cast_succ m, ← Nat.cast_succ, zpow_natCast]
      exact_mod_cast hlt
    have hlog : Int.log 2 (x * 2 ^ e) = m.log2 + e := by
      refine le_antisymm (Int.lt_add_one_iff.1 ?_) ?_
      · rw [← Int.lt_zpow_iff_log_lt (by decide) hpos, add_right_comm]
        push_cast
        rw [zpow_add₀ two_ne_zero]
        gcongr
      · rw [← Int.zpow_le_iff_le_log (by decide) hpos]
        push_cast
        rw [zpow_add₀ two_ne_zero]
        gcongr
    rw [hlog]
    omega

/-- A rounded mantissa is shifted once more if it has a bit too many, and then it is a power of
two. -/
theorem shiftToTargetExponent_rounded (hm : m ≤ 2 ^ 53) (he : -1074 ≤ e)
    (hfull : 2 ^ 52 ≤ m ∨ e = -1074) :
    ∃ m' e', shiftToTargetExponent Format.binary64 m e .exact = (⟨m', false, false⟩, e') ∧
      Canonical m' e' ∧ (m' : ℚ) * 2 ^ e' = m * 2 ^ e := by
  rcases hm.lt_or_eq with hlt | rfl
  · have hshift : (Format.binary64.targetExponent (totalExponent m e) - e).toNat = 0 := by
      have hlog := log2_le hlt
      rw [targetExponent_eq, totalExponent]
      omega
    refine ⟨m, e, ?_, ⟨hlt, he, hfull⟩, rfl⟩
    rw [shiftToTargetExponent, shiftToExponent]
    rw [hshift]
    simp [ExtendedMantissa.ofMantissaAndAccuracy]
    rfl
  · have hshift : (Format.binary64.targetExponent (totalExponent (2 ^ 53) e) - e).toNat = 1 := by
      rw [targetExponent_eq, totalExponent, Nat.log2_two_pow]
      omega
    refine ⟨2 ^ 52, e + 1, ?_, ⟨by norm_num, by omega, .inl (le_refl _)⟩, ?_⟩
    · rw [shiftToTargetExponent, shiftToExponent]
      rw [hshift]
      rfl
    · rw [zpow_add_one₀ two_ne_zero]
      push_cast
      ring

/-- **What is rounded is the nearest double**, whatever its sign. -/
theorem round_eq (h : Locates acc m x) (hx : 0 < x) (hready : Ready m e) :
    (roundWithAccuracy Format.binary64 s m e acc = .zero s ∧ nearest (x * 2 ^ e) = 0) ∨
      ∃ m' e' hm', roundWithAccuracy Format.binary64 s m e acc = .finite s m' e' hm' ∧
        Canonical m' e' ∧ nearest (x * 2 ^ e) = m' * 2 ^ e' := by
  have hpos : 0 < x * 2 ^ e := by positivity
  have htarget := targetExponent_of_locates h hx hready
  have hshift : e + (exponentFor (x * 2 ^ e) - e).toNat = exponentFor (x * 2 ^ e) := by
    rw [Ready, htarget] at hready
    omega
  generalize hk : (exponentFor (x * 2 ^ e) - e).toNat = k at hshift
  have hrounded : ((ExtendedMantissa.ofMantissaAndAccuracy m acc) >>> k).roundedMantissa =
      roundEven (x * 2 ^ e / 2 ^ exponentFor (x * 2 ^ e)) := by
    have hscaled : x * 2 ^ e / 2 ^ exponentFor (x * 2 ^ e) = x / 2 ^ k := by
      rw [← hshift, zpow_add₀ two_ne_zero, zpow_natCast]
      field_simp
    rw [hscaled]
    exact (h.ofMantissaAndAccuracy.shiftRight k).roundToNearestEven_eq
  obtain ⟨m', e', hagain, hcanonical, hvalue⟩ :=
    shiftToTargetExponent_rounded (e := exponentFor (x * 2 ^ e))
      (roundEven_scaled_le (x * 2 ^ e)) (le_max_right _ _)
      (or_iff_not_imp_right.2 (le_roundEven_scaled hpos))
  have hresult : roundWithAccuracy Format.binary64 s m e acc =
      if hm' : m' = 0 then .zero s else .finite s m' e' (Nat.pos_of_ne_zero hm') := by
    have hfirst : shiftToTargetExponent Format.binary64 m e acc =
        (ExtendedMantissa.ofMantissaAndAccuracy m acc >>> k, exponentFor (x * 2 ^ e)) := by
      rw [shiftToTargetExponent, htarget, shiftToExponent]
      rw [hk, hshift]
    rw [roundWithAccuracy, hfirst]
    dsimp only
    rw [hrounded, hagain]
  rw [nearest, ← hvalue, hresult]
  split
  · rename_i hzero
    exact .inl ⟨rfl, by rw [hzero]; simp⟩
  · rename_i hnonzero
    exact .inr ⟨m', e', Nat.pos_of_ne_zero hnonzero, rfl, hcanonical, rfl⟩

/-! ### Sizes -/

/-- The absolute value of a double in parts; an infinite one is above all numbers. -/
def size : UnpackedFloat → WithTop ℚ
  | .zero _ => 0
  | .finite _ m e _ => (m * 2 ^ e : ℚ)
  | .infinity _ | .notANumber => ⊤

/-- A number that is not too large for a double. -/
def cap (r : ℚ) : WithTop ℚ :=
  if r < 2 ^ 1024 then r else ⊤

theorem cap_mono {r r' : ℚ} (h : r ≤ r') : cap r ≤ cap r' := by
  unfold cap
  split_ifs with hr hr'
  · exact WithTop.coe_le_coe.2 h
  · exact le_top
  · exact absurd (h.trans_lt ‹_›) hr
  · exact le_refl _

/-- The doubles in parts that are not below zero. -/
inductive Upward : UnpackedFloat → Prop
  | zero (s : Sign) : Upward (.zero s)
  | finite {m : ℕ} {e : ℤ} {hm : 0 < m} (h : Canonical m e) : Upward (.finite .positive m e hm)
  | infinity : Upward (.infinity .positive)

theorem Upward.ne_notANumber {u : UnpackedFloat} (h : Upward u) : u ≠ .notANumber := by
  rintro rfl
  cases h

/-- Of two canonical mantissas with exponents the one with the greater value has the greater exponent,
or the same one and the greater mantissa. -/
theorem lex_le_of_value_le {m m' : ℕ} {e e' : ℤ} (h : Canonical m e) (h' : Canonical m' e')
    (hle : (m : ℚ) * 2 ^ e ≤ m' * 2 ^ e') : e < e' ∨ e = e' ∧ m ≤ m' := by
  rcases lt_trichotomy e e' with hlt | rfl | hgt
  · exact .inl hlt
  · have hpow : (0 : ℚ) < 2 ^ e := by positivity
    exact .inr ⟨rfl, by exact_mod_cast le_of_mul_le_mul_right hle hpow⟩
  · -- a mantissa above the least exponent uses all of its bits
    exfalso
    have hfull : (2 : ℚ) ^ 52 ≤ m := by
      exact_mod_cast h.full.resolve_right (by have := h'.le; omega)
    have hlt : (m' : ℚ) < 2 ^ 53 := by exact_mod_cast h'.lt
    have hstep : (2 : ℚ) ^ (e' + 1) ≤ 2 ^ e := zpow_le_zpow_right₀ one_le_two (by omega)
    have hpow : (0 : ℚ) < 2 ^ e' := by positivity
    rw [zpow_add_one₀ two_ne_zero] at hstep
    nlinarith

/-- **Doubles that are not below zero compare as their sizes do.** -/
theorem place_le_of_size_le {u v : UnpackedFloat} (hu : Upward u) (hv : Upward v)
    (h : size u ≤ size v) : place u ≤ place v := by
  cases hu with
  | zero s =>
      cases hv with
      | zero s' => exact le_refl _
      | finite _ => exact Prod.Lex.toLex_le_toLex.2 (.inl Int.zero_lt_one)
      | infinity => exact Prod.Lex.toLex_le_toLex.2 (.inl zero_lt_two)
  | @finite m e hm hc =>
      cases hv with
      | zero s =>
          have hpos : (0 : ℚ) < m * 2 ^ e := by positivity
          exact absurd (WithTop.coe_le_coe.1 h) hpos.not_ge
      | @finite m' e' hm' hc' =>
          refine Prod.Lex.toLex_le_toLex.2 (.inr ⟨rfl, Prod.Lex.toLex_le_toLex.2 ?_⟩)
          rcases lex_le_of_value_le hc hc' (WithTop.coe_le_coe.1 h) with hlt | ⟨rfl, hle⟩
          · exact .inl hlt
          · exact .inr ⟨rfl, Int.ofNat_le.2 hle⟩
      | infinity => exact Prod.Lex.toLex_le_toLex.2 (.inl one_lt_two)
  | infinity =>
      cases hv with
      | zero s | @finite m e hm hc => exact absurd (top_le_iff.1 h) (WithTop.coe_ne_top)
      | infinity => exact le_refl _

/-! ### Packing -/

/-- Packing keeps a mantissa that does not use all of its bits. -/
theorem unpack_pack_subnormal {hm : 0 < m} (hlt : m < 2 ^ 52) :
    unpack (pack (.finite s m (-1074) hm)) = .finite s m (-1074) hm := by
  have hlog : ¬ m.log2 + 1 = Format.binary64.mantissaBits := by
    have := (Nat.log2_lt hm.ne').2 hlt
    change ¬ m.log2 + 1 = 53
    omega
  have hmantissa : (BitVec.ofNat Format.binary64.mantissaBitsWithoutImplicit m).toNat = m := by
    rw [BitVec.toNat_ofNat]
    exact Nat.mod_eq_of_lt hlt
  have hnonzero : BitVec.ofNat Format.binary64.mantissaBitsWithoutImplicit m ≠ 0#_ := by
    intro h
    rw [h] at hmantissa
    change 0 = m at hmantissa
    omega
  change UnpackedFloat.unpack Format.binary64 (UnpackedFloat.pack Format.binary64 _) = _
  rw [UnpackedFloat.pack]
  dsimp only
  rw [if_neg (by decide), if_neg hlog, UnpackedFloat.unpack]
  simp only [unpackMantissa_packComponents, unpackExponent_packComponents,
    unpackSign_packComponents, ofBitVec_toBitVec]
  rw [if_neg (by decide), if_pos trivial, dif_neg hnonzero]
  congr 1

theorem unpack_packedInfinity :
    UnpackedFloat.unpack Format.binary64 (packedInfinity Format.binary64 s) = .infinity s := by
  cases s <;> rfl

/-- A number that is too large for a double is packed as an infinite one. -/
theorem unpack_pack_overflow {hm : 0 < m} (he : 972 ≤ e) :
    unpack (pack (.finite s m e hm)) = .infinity s := by
  have hbiased : 2 ^ Format.binary64.exponentBits ≤ (e + Format.binary64.exponentBias
      + Format.binary64.mantissaBitsWithoutImplicit).toNat + 1 := by
    change 2048 ≤ (e + (1023 : ℕ) + (52 : ℕ)).toNat + 1
    omega
  change UnpackedFloat.unpack Format.binary64 (UnpackedFloat.pack Format.binary64 _) = _
  rw [UnpackedFloat.pack]
  dsimp only
  rw [if_pos hbiased, unpack_packedInfinity]

theorem value_lt (h : Canonical m e) (he : e ≤ 971) : (m : ℚ) * 2 ^ e < 2 ^ 1024 := by
  have hlt : (m : ℚ) < 2 ^ 53 := by exact_mod_cast h.lt
  have hpow : (2 : ℚ) ^ e ≤ 2 ^ (971 : ℤ) := zpow_le_zpow_right₀ one_le_two he
  calc (m : ℚ) * 2 ^ e < 2 ^ 53 * 2 ^ e := by gcongr
    _ ≤ 2 ^ 53 * 2 ^ (971 : ℤ) := by gcongr
    _ = 2 ^ 1024 := by
        rw [zpow_ofNat]
        exact (pow_add (2 : ℚ) 53 971).symm

/-- **Packing keeps the doubles.** -/
theorem unpack_pack_canonical {hm : 0 < m} (h : Canonical m e) (he : e ≤ 971) :
    unpack (pack (.finite s m e hm)) = .finite s m e hm := by
  rcases h.full with hfull | rfl
  · exact unpack_pack_finite hfull h.lt h.le he
  · rcases lt_or_ge m (2 ^ 52) with hlt | hge
    · exact unpack_pack_subnormal hlt
    · exact unpack_pack_finite hge h.lt h.le he

/-- What is packed keeps its size, or becomes infinite if it is too large. -/
theorem upward_pack {hm : 0 < m} (h : Canonical m e) :
    Upward (unpack (pack (.finite .positive m e hm))) ∧
      size (unpack (pack (.finite .positive m e hm))) = cap (m * 2 ^ e) := by
  rcases lt_or_ge 971 e with hlarge | hsmall
  · rw [unpack_pack_overflow (by omega)]
    refine ⟨.infinity, (if_neg ?_).symm⟩
    have hfull : (2 : ℚ) ^ 52 ≤ m := by exact_mod_cast h.full.resolve_right (by omega)
    have hpow : (2 : ℚ) ^ (972 : ℤ) ≤ 2 ^ e := zpow_le_zpow_right₀ one_le_two (by omega)
    rw [not_lt]
    calc (2 : ℚ) ^ 1024 = 2 ^ 52 * 2 ^ (972 : ℤ) := by
          rw [zpow_ofNat]
          exact pow_add (2 : ℚ) 52 972
      _ ≤ (m : ℚ) * 2 ^ e := by gcongr
  · rw [unpack_pack_canonical h hsmall]
    exact ⟨.finite h, (if_pos (value_lt h hsmall)).symm⟩

/-- **What is rounded and packed is the nearest double**, or infinite if that is too large. -/
theorem upward_round (h : Locates acc m x) (hx : 0 < x) (hready : Ready m e) :
    Upward (unpack (pack (roundWithAccuracy Format.binary64 .positive m e acc))) ∧
      size (unpack (pack (roundWithAccuracy Format.binary64 .positive m e acc))) =
        cap (nearest (x * 2 ^ e)) := by
  rcases round_eq (s := .positive) h hx hready with
    ⟨hzero, hnearest⟩ | ⟨m', e', hm', hfinite, hcanonical, hnearest⟩
  · rw [hzero, hnearest]
    change Upward (UnpackedFloat.unpack _ (packedZero _ _)) ∧
      size (UnpackedFloat.unpack _ (packedZero _ _)) = _
    rw [unpack_packedZero]
    exact ⟨.zero _, (if_pos (by positivity)).symm⟩
  · rw [hfinite, hnearest]
    exact upward_pack hcanonical

end StudyAnalysis.Double
