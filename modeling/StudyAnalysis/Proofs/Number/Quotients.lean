/-
**Quotients by counts.**

The p-values of several comparisons are divided by their number, and halved if they are taken towards
a prediction.  What can be said about such quotients without knowing the numbers is that they are
never greater than the dividend, and that they become no greater if the count does; this is collected
in `CountDivision`.  Doubles have these laws although quotients, and counts beyond `2 ^ 53`, are
rounded, because rounding is monotone.

Main definitions:

* `StudyAnalysis.CountDivision` — dividing by a count does not make numbers greater.

Main results:

* `StudyAnalysis.Double.exists_quotient` — the quotient of two doubles is the nearest double;
* `StudyAnalysis.Double.size_ofNat` — the double of a count is the nearest one, whatever the count.
-/

import Mathlib
import StudyAnalysis.Proofs.Number.Rounding

set_option autoImplicit false
set_option relaxedAutoImplicit false

namespace StudyAnalysis

/-- Numbers that dividing by a count does not make greater, and the less so the greater the count
is. -/
class CountDivision (α : Type) [Numeric α] : Prop where
  zero_lt_one : (0 : α) < 1
  div_lt {x y : α} {n : ℕ} : ¬ x < 0 → 0 < n → x < y → x / Numeric.ofNat n < y
  lt_of_lt_div {x y : α} {n : ℕ} : ¬ x < 0 → 0 < n → y < x / Numeric.ofNat n → y < x
  div_lt_of_le {x y : α} {m n : ℕ} : ¬ x < 0 → 0 < m → m ≤ n → x / Numeric.ofNat m < y →
    x / Numeric.ofNat n < y
  neg_of_div {x : α} {n : ℕ} : 0 < n → x / Numeric.ofNat n < 0 → x < 0

namespace Double

open Float.Model UnpackedFloat

/-! ### The quotient of two doubles -/

/-- What is computed of a quotient before it is rounded determines it. -/
theorem exists_locates_divCore {m₁ m₂ : ℕ} (h₁ : 0 < m₁) (h₂ : 0 < m₂) (e₁ e₂ : ℤ) :
    ∃ x, Locates (divCore Format.binary64 m₁ e₁ m₂ e₂).2.2 (divCore Format.binary64 m₁ e₁ m₂ e₂).1 x ∧
      0 < x ∧
      Ready (divCore Format.binary64 m₁ e₁ m₂ e₂).1 (divCore Format.binary64 m₁ e₁ m₂ e₂).2.1 ∧
      x * 2 ^ (divCore Format.binary64 m₁ e₁ m₂ e₂).2.1 = m₁ * 2 ^ e₁ / (m₂ * 2 ^ e₂) := by
  rw [divCore]
  dsimp only
  generalize htarget : Format.binary64.targetExponent
    (totalExponent m₁ e₁ - totalExponent m₂ e₂) = target
  generalize hexponent : min (e₁ - e₂) target = e
  obtain ⟨k, hk⟩ : ∃ k : ℕ, e₁ - e₂ - e = k := ⟨(e₁ - e₂ - e).toNat, by omega⟩
  rw [hk, Int.toNat_natCast, Nat.shiftLeft_eq]
  have hq : (0 : ℚ) < m₂ := by exact_mod_cast h₂
  have hdivision : ((m₁ * 2 ^ k : ℕ) : ℚ) / m₂ =
      (m₁ * 2 ^ k / m₂ : ℕ) + ((m₁ * 2 ^ k % m₂ : ℕ) : ℚ) / m₂ := by
    rw [div_eq_iff hq.ne', add_mul, div_mul_cancel₀ _ hq.ne']
    exact_mod_cast (Nat.div_add_mod' (m₁ * 2 ^ k) m₂).symm
  refine ⟨((m₁ * 2 ^ k : ℕ) : ℚ) / m₂, ?_, by positivity, ?_, ?_⟩
  · -- the remainder says on which side of the middle the quotient lies
    rw [hdivision]
    generalize m₁ * 2 ^ k / m₂ = q
    have hlt := Nat.mod_lt (m₁ * 2 ^ k) h₂
    generalize m₁ * 2 ^ k % m₂ = r at hlt
    rw [accuracyOfFraction]
    split
    · rename_i hzero
      simp [Locates, hzero]
    · rename_i hnonzero
      have hr : (0 : ℚ) < r := by exact_mod_cast Nat.pos_of_ne_zero hnonzero
      have hbelow : (r : ℚ) / m₂ < 1 := (div_lt_one hq).2 (by exact_mod_cast hlt)
      have habove : 0 < (r : ℚ) / m₂ := by positivity
      rcases lt_trichotomy (2 * r) m₂ with hside | hside | hside
      · have hhalf : (r : ℚ) / m₂ < 1 / 2 := by
          rw [div_lt_div_iff₀ hq two_pos]
          exact_mod_cast (by omega : r * 2 < 1 * m₂)
        rw [Nat.compare_eq_lt.2 hside]
        exact ⟨by linarith, by linarith⟩
      · have hhalf : (r : ℚ) / m₂ = 1 / 2 := by
          rw [div_eq_div_iff hq.ne' two_ne_zero]
          exact_mod_cast (by omega : r * 2 = 1 * m₂)
        rw [Nat.compare_eq_eq.2 hside]
        exact congrArg _ hhalf
      · have hhalf : 1 / 2 < (r : ℚ) / m₂ := by
          rw [div_lt_div_iff₀ two_pos hq]
          exact_mod_cast (by omega : 1 * m₂ < r * 2)
        rw [Nat.compare_eq_gt.2 hside]
        exact ⟨by linarith, by linarith⟩
  · -- the dividend has been shifted far enough for all bits of a mantissa
    rw [targetExponent_eq, totalExponent, totalExponent] at htarget
    rw [Ready, targetExponent_eq, totalExponent]
    have hlog : (m₁.log2 : ℤ) + k - m₂.log2 - 1 ≤ (m₁ * 2 ^ k / m₂).log2 := by
      obtain ⟨hle, -⟩ := (Nat.log2_eq_iff h₁.ne').1 rfl
      obtain ⟨-, hlt⟩ := (Nat.log2_eq_iff h₂.ne').1 rfl
      rcases lt_or_ge (m₁.log2 + k) (m₂.log2 + 1) with hfew | hmany
      · omega
      have hquotient : 2 ^ (m₁.log2 + k - (m₂.log2 + 1)) ≤ m₁ * 2 ^ k / m₂ := by
        rw [Nat.le_div_iff_mul_le h₂]
        calc 2 ^ (m₁.log2 + k - (m₂.log2 + 1)) * m₂
            ≤ 2 ^ (m₁.log2 + k - (m₂.log2 + 1)) * 2 ^ (m₂.log2 + 1) := by gcongr
          _ = 2 ^ m₁.log2 * 2 ^ k := by rw [← pow_add, Nat.sub_add_cancel hmany, pow_add]
          _ ≤ m₁ * 2 ^ k := by gcongr
      have hbits := (Nat.le_log2 ((Nat.two_pow_pos _).trans_le hquotient).ne').2 hquotient
      omega
    omega
  · have hsum : e₁ = e + k + e₂ := by omega
    rw [hsum, zpow_add₀ two_ne_zero, zpow_add₀ two_ne_zero, zpow_natCast]
    push_cast
    field_simp

/-- What the rounded quotient of two sizes is; the divisor is not zero. -/
def quotientSize : WithTop ℚ → WithTop ℚ → WithTop ℚ
  | ⊤, _ => ⊤
  | (_ : ℚ), ⊤ => 0
  | (a : ℚ), (b : ℚ) => cap (nearest (a / b))

theorem nearest_zero : nearest 0 = 0 := by
  have h := roundEven_natCast 0
  rw [Nat.cast_zero] at h
  rw [nearest, zero_div, h, Nat.cast_zero, zero_mul]

theorem cap_zero : cap 0 = 0 := if_pos (by positivity)

theorem cap_one : cap 1 = 1 := if_pos (one_lt_pow₀ one_lt_two (by decide))

/-- **A greater divisor gives no greater quotient.** -/
theorem quotientSize_anti {a b b' : WithTop ℚ} (ha : 0 ≤ a) (hb : 0 < b) (h : b ≤ b') :
    quotientSize a b' ≤ quotientSize a b := by
  cases a with
  | top => exact le_refl _
  | coe a =>
      have ha : 0 ≤ a := WithTop.coe_le_coe.1 ha
      cases b' with
      | top =>
          cases b with
          | top => exact le_refl _
          | coe b =>
              change (0 : WithTop ℚ) ≤ cap _
              rw [← cap_zero]
              exact cap_mono (nearest_nonneg _)
      | coe b' =>
          obtain ⟨b, rfl, h⟩ := WithTop.le_coe_iff.1 h
          have hb : 0 < b := WithTop.coe_lt_coe.1 hb
          have h : b ≤ b' := WithTop.coe_le_coe.1 h
          refine cap_mono ?_
          rcases ha.eq_or_lt with rfl | ha
          · rw [zero_div, zero_div]
          · exact nearest_mono (div_pos ha (hb.trans_le h)) (by gcongr)

theorem upward_pack_zero (s : Sign) :
    Upward (unpack (pack (.zero s))) ∧ size (unpack (pack (.zero s))) = 0 := by
  change Upward (UnpackedFloat.unpack _ (packedZero _ s)) ∧
    size (UnpackedFloat.unpack _ (packedZero _ s)) = _
  rw [unpack_packedZero]
  exact ⟨.zero s, rfl⟩

/-- **The quotient of two doubles is the nearest double**, if they are not below zero, the dividend is
not infinite and the divisor is not zero. -/
theorem upward_div {u v : UnpackedFloat} (hu : Upward u) (hv : Upward v) (hfinite : size u ≠ ⊤)
    (hpos : 0 < size v) :
    Upward (unpack (pack (UnpackedFloat.div Format.binary64 u v))) ∧
      size (unpack (pack (UnpackedFloat.div Format.binary64 u v))) =
        quotientSize (size u) (size v) := by
  cases hv with
  | zero s => exact absurd hpos (lt_irrefl _)
  | infinity =>
      cases hu with
      | infinity => exact absurd rfl hfinite
      | zero s | finite h => exact upward_pack_zero _
  | @finite m₂ e₂ hm₂ h₂ =>
      cases hu with
      | infinity => exact absurd rfl hfinite
      | zero s =>
          have hnone : quotientSize 0 (size (.finite .positive m₂ e₂ hm₂)) = 0 := by
            change cap (nearest (0 / _)) = 0
            rw [zero_div, nearest_zero, cap_zero]
          exact ⟨(upward_pack_zero _).1, (upward_pack_zero _).2.trans hnone.symm⟩
      | @finite m₁ e₁ hm₁ h₁ =>
          obtain ⟨x, hx, hxpos, hready, hvalue⟩ :=
            exists_locates_divCore hm₁ hm₂ e₁ e₂
          have hround := upward_round hx hxpos hready
          rw [hvalue] at hround
          exact hround

/-! ### Counts -/

variable {n : ℕ}

theorem mantissaOf_mul_exponentOf (n : ℕ) : (mantissaOf n : ℚ) * 2 ^ exponentOf n = n := by
  rw [mantissaOf, exponentOf, Nat.shiftLeft_eq, zpow_neg, zpow_natCast]
  push_cast
  field_simp

theorem nearest_natCast (hpos : 0 < n) (hn : n < 2 ^ 53) : nearest n = n := by
  rw [← mantissaOf_mul_exponentOf n]
  exact nearest_of_canonical (canonical_count hpos hn) (mantissaOf_pos hpos)

/-- **The double of a count is the nearest one**, whatever the count. -/
theorem size_ofNat (hpos : 0 < n) :
    Upward (Float.ofNat n).toModel.unpack ∧
      size (Float.ofNat n).toModel.unpack = cap (nearest n) := by
  rcases lt_or_ge n (2 ^ 53) with hn | hn
  · rw [unpack_ofNat hpos hn, nearest_natCast hpos hn]
    refine ⟨.finite (canonical_count hpos hn), ?_⟩
    rw [size, mantissaOf_mul_exponentOf, cap, if_pos]
    calc (n : ℚ) < 2 ^ 53 := by exact_mod_cast hn
      _ ≤ 2 ^ 1024 := pow_le_pow_right₀ one_le_two (by decide)
  · -- a greater count is scaled by an exact multiplication
    have hscientific : (Float.ofNat n).toModel = pack (UnpackedFloat.mul Format.binary64
        (.finite .positive (n <<< 53) (-53) (by rw [Nat.shiftLeft_eq]; positivity))
        (.finite .positive (10 ^ 0) 0 (by decide))) := by
      change (Float.ofScientific n false 0).toModel = _
      rw [Float.ofScientific, dif_neg (by omega)]
      change pack (UnpackedFloat.ofScientific Format.binary64 n 0) = _
      rw [UnpackedFloat.ofScientific, dif_neg hpos.ne', if_neg (by decide), if_neg, if_pos le_rfl]
      · rfl
      · change ¬ (0 : ℤ) < -(2 ^ 11 + (n.log2 : ℤ))
        omega
    rw [hscientific]
    have hlocates : Locates .exact (n <<< 53 * 10 ^ 0) ((n * 2 ^ 53 : ℕ) : ℚ) := by
      rw [Nat.shiftLeft_eq, pow_zero, mul_one]
      rfl
    have hready : Ready (n <<< 53 * 10 ^ 0) (-53 + 0) := by
      rw [Ready, targetExponent_eq, totalExponent, pow_zero, mul_one, Nat.shiftLeft_eq]
      have hlog : 53 ≤ (n * 2 ^ 53).log2 := (Nat.le_log2 (by positivity)).2 (by omega)
      omega
    have hround := upward_round hlocates (by positivity) hready
    have hvalue : ((n * 2 ^ 53 : ℕ) : ℚ) * 2 ^ ((-53 : ℤ) + 0) = n := by
      rw [add_zero, zpow_neg]
      push_cast
      field_simp
    rw [hvalue] at hround
    exact hround

theorem one_le_nearest {r : ℚ} (h : 1 ≤ r) : 1 ≤ nearest r := by
  have hone : nearest (1 : ℕ) = 1 := by
    rw [nearest_natCast one_pos (by decide), Nat.cast_one]
  rw [← hone]
  exact nearest_mono (by norm_num) (by rwa [Nat.cast_one])

theorem one_le_size_ofNat (hpos : 0 < n) : 1 ≤ size (Float.ofNat n).toModel.unpack := by
  rw [(size_ofNat hpos).2, ← cap_one]
  exact cap_mono (one_le_nearest (by exact_mod_cast hpos))

theorem size_ofNat_mono {m n : ℕ} (hpos : 0 < m) (h : m ≤ n) :
    size (Float.ofNat m).toModel.unpack ≤ size (Float.ofNat n).toModel.unpack := by
  rw [(size_ofNat hpos).2, (size_ofNat (hpos.trans_le h)).2]
  exact cap_mono (nearest_mono (by exact_mod_cast hpos) (by exact_mod_cast h))

/-! ### Floating point -/

theorem exponent_le_of_unpack {b : BitVec 64} {s : Sign} {m : ℕ} {e : ℤ} {hm : 0 < m}
    (h : UnpackedFloat.unpack Format.binary64 b = .finite s m e hm) : e ≤ 971 := by
  rw [UnpackedFloat.unpack] at h
  dsimp only at h
  split at h
  · split at h <;> cases h
  · rename_i hlarge
    have hexponent : (@unpackExponent Format.binary64 b).toNat ≠ 2047 := fun hall =>
      hlarge (BitVec.eq_of_toNat_eq hall)
    have hlt := (@unpackExponent Format.binary64 b).isLt
    change _ < 2048 at hlt
    split at h
    · rename_i hzero
      split at h
      · cases h
      · injection h with _ _ he
        rw [hzero] at he
        change (0 - (1023 + 52) + 1 : ℤ) = e at he
        omega
    · injection h with _ _ he
      change ((@unpackExponent Format.binary64 b).toNat - (1023 + 52) : ℤ) = e at he
      omega

variable {x y : Float}

/-- A number that is not below zero is a double upwards of zero, and dividing it by one keeps it. -/
theorem upward_of_not_neg (hnumber : x.toModel.unpack ≠ .notANumber) (hx : ¬ x < Float.ofNat 0) :
    Upward x.toModel.unpack ∧
      quotientSize (size x.toModel.unpack) 1 = size x.toModel.unpack := by
  rw [neg_iff] at hx
  obtain ⟨b, hb⟩ := represented_unpack x
  generalize x.toModel.unpack = u at hnumber hx hb
  cases u with
  | notANumber => exact absurd rfl hnumber
  | zero s =>
      refine ⟨.zero s, ?_⟩
      change cap (nearest (0 / 1)) = 0
      rw [zero_div, nearest_zero, cap_zero]
  | infinity s =>
      cases s with
      | negative => exact absurd .infinity hx
      | positive => exact ⟨.infinity, rfl⟩
  | finite s m e hm =>
      cases s with
      | negative => exact absurd .finite hx
      | positive =>
          have hc := canonical_of_unpack hb
          refine ⟨.finite hc, ?_⟩
          change cap (nearest (m * 2 ^ e / 1)) = (m * 2 ^ e : ℚ)
          rw [div_one, nearest_of_canonical hc hm]
          exact if_pos (value_lt hc (exponent_le_of_unpack hb))

theorem lt_iff_place : x < y ↔ x.toModel.unpack ≠ .notANumber ∧ y.toModel.unpack ≠ .notANumber ∧
    place x.toModel.unpack < place y.toModel.unpack := by
  rw [lt_iff]
  constructor
  · intro h
    obtain ⟨hx, hy⟩ := ne_notANumber_of_compare h
    rw [compare_eq_compare_place hx hy] at h
    exact ⟨hx, hy, compare_lt_iff_lt.1 (Option.some.inj h)⟩
  · rintro ⟨hx, hy, hlt⟩
    rw [compare_eq_compare_place hx hy, compare_lt_iff_lt.2 hlt]

/-- A number that is below another one is not infinite upwards. -/
theorem size_ne_top_of_place_lt {u v : UnpackedFloat} (hu : Upward u) (h : place u < place v) :
    size u ≠ ⊤ := by
  cases hu with
  | zero s => exact WithTop.coe_ne_top
  | finite hc => exact WithTop.coe_ne_top
  | infinity =>
      -- no place is after that of the infinite number
      rcases v with (_ | _) | _ | _ | ⟨_ | _, m, e, _⟩ <;>
        exact absurd h (by simp [place, Sign.apply, Prod.Lex.toLex_lt_toLex])

theorem quotient_of_notANumber (h : x.toModel.unpack = .notANumber) :
    (x / Float.ofNat n).toModel.unpack = .notANumber := by
  have hdiv (v : UnpackedFloat) :
      UnpackedFloat.div Format.binary64 .notANumber v = .notANumber := by
    cases v <;> rfl
  change unpack (pack (UnpackedFloat.div _ x.toModel.unpack (Float.ofNat n).toModel.unpack)) = _
  rw [h, hdiv]
  rfl

/-- The infinite number stays infinite unless the count is beyond all doubles. -/
theorem quotient_of_size_eq_top (hx : Upward x.toModel.unpack) (hpos : 0 < n)
    (htop : size x.toModel.unpack = ⊤) :
    (x / Float.ofNat n).toModel.unpack = .notANumber ∨
      (x / Float.ofNat n).toModel.unpack = x.toModel.unpack := by
  obtain ⟨hn, -⟩ := size_ofNat hpos
  have hone := one_le_size_ofNat hpos
  change unpack (pack (UnpackedFloat.div _ x.toModel.unpack (Float.ofNat n).toModel.unpack)) = _ ∨
    unpack (pack (UnpackedFloat.div _ x.toModel.unpack (Float.ofNat n).toModel.unpack)) = _
  generalize x.toModel.unpack = u at hx htop
  generalize (Float.ofNat n).toModel.unpack = v at hn hone
  cases hx with
  | zero s | finite hc => exact absurd htop WithTop.coe_ne_top
  | infinity =>
      cases hn with
      | zero s => exact absurd hone zero_lt_one.not_ge
      | finite hc => exact .inr unpack_packedInfinity
      | infinity => exact .inl rfl

/-- What a number is divided into by a count, unless one of them is infinite. -/
theorem upward_quotient (hx : Upward x.toModel.unpack) (hfinite : size x.toModel.unpack ≠ ⊤)
    (hpos : 0 < n) :
    Upward (x / Float.ofNat n).toModel.unpack ∧ size (x / Float.ofNat n).toModel.unpack =
      quotientSize (size x.toModel.unpack) (size (Float.ofNat n).toModel.unpack) :=
  upward_div hx (size_ofNat hpos).1 hfinite (zero_lt_one.trans_le (one_le_size_ofNat hpos))

theorem Upward.size_nonneg {u : UnpackedFloat} (h : Upward u) : 0 ≤ size u := by
  cases h with
  | zero s => exact le_refl _
  | finite hc => exact WithTop.coe_le_coe.2 (by positivity)
  | infinity => exact le_top

/-- **Dividing by a count gives no greater number.** -/
theorem place_quotient_le (hx : ¬ x < Float.ofNat 0) (hnumber : x.toModel.unpack ≠ .notANumber)
    (hfinite : size x.toModel.unpack ≠ ⊤) (hpos : 0 < n) :
    place (x / Float.ofNat n).toModel.unpack ≤ place x.toModel.unpack := by
  obtain ⟨hup, hkept⟩ := upward_of_not_neg hnumber hx
  obtain ⟨hq, hsize⟩ := upward_quotient hup hfinite hpos
  refine place_le_of_size_le hq hup ?_
  rw [hsize]
  conv_rhs => rw [← hkept]
  exact quotientSize_anti hup.size_nonneg zero_lt_one (one_le_size_ofNat hpos)

theorem div_lt (hx : ¬ x < Float.ofNat 0) (hpos : 0 < n) (h : x < y) : x / Float.ofNat n < y := by
  obtain ⟨hnumber, hy, hlt⟩ := lt_iff_place.1 h
  obtain ⟨hup, -⟩ := upward_of_not_neg hnumber hx
  have hfinite := size_ne_top_of_place_lt hup hlt
  obtain ⟨hq, -⟩ := upward_quotient hup hfinite hpos
  exact lt_iff_place.2
    ⟨hq.ne_notANumber, hy, (place_quotient_le hx hnumber hfinite hpos).trans_lt hlt⟩

theorem lt_of_lt_div (hx : ¬ x < Float.ofNat 0) (hpos : 0 < n) (h : y < x / Float.ofNat n) :
    y < x := by
  obtain ⟨hy, hq, hlt⟩ := lt_iff_place.1 h
  have hnumber : x.toModel.unpack ≠ .notANumber := fun hnan => hq (quotient_of_notANumber hnan)
  obtain ⟨hup, -⟩ := upward_of_not_neg hnumber hx
  refine lt_iff_place.2 ⟨hy, hnumber, hlt.trans_le ?_⟩
  by_cases htop : size x.toModel.unpack = ⊤
  · exact ((quotient_of_size_eq_top hup hpos htop).resolve_left hq ▸ le_refl _)
  · exact place_quotient_le hx hnumber htop hpos

theorem div_lt_of_le {m n : ℕ} (hx : ¬ x < Float.ofNat 0) (hpos : 0 < m) (hmn : m ≤ n)
    (h : x / Float.ofNat m < y) : x / Float.ofNat n < y := by
  obtain ⟨hq, hy, hlt⟩ := lt_iff_place.1 h
  have hnumber : x.toModel.unpack ≠ .notANumber := fun hnan => hq (quotient_of_notANumber hnan)
  obtain ⟨hup, -⟩ := upward_of_not_neg hnumber hx
  have hfinite : size x.toModel.unpack ≠ ⊤ := by
    intro htop
    rw [(quotient_of_size_eq_top hup hpos htop).resolve_left hq] at hlt
    exact size_ne_top_of_place_lt hup hlt htop
  obtain ⟨hm, hsizem⟩ := upward_quotient hup hfinite hpos
  obtain ⟨hn, hsizen⟩ := upward_quotient hup hfinite (hpos.trans_le hmn)
  refine lt_iff_place.2 ⟨hn.ne_notANumber, hy, (place_le_of_size_le hn hm ?_).trans_lt hlt⟩
  rw [hsizem, hsizen]
  exact quotientSize_anti hup.size_nonneg (zero_lt_one.trans_le (one_le_size_ofNat hpos))
    (size_ofNat_mono hpos hmn)

/-- A count is positive, so dividing by it keeps the sign. -/
theorem neg_of_div (hpos : 0 < n) (h : x / Float.ofNat n < Float.ofNat 0) : x < Float.ofNat 0 := by
  rw [neg_iff] at h ⊢
  obtain ⟨s₁, s₂, hx, hsign, hquotient⟩ := points_of_points_div (points_of_pack h)
  obtain ⟨hn, -⟩ := size_ofNat hpos
  have hone := one_le_size_ofNat hpos
  generalize (Float.ofNat n).toModel.unpack = v at hsign hn hone
  cases hn with
  | zero s => exact absurd hone zero_lt_one.not_ge
  | finite hc =>
      obtain rfl := Option.some.inj hsign
      cases s₁ with
      | negative => exact hx
      | positive => cases hquotient
  | infinity =>
      obtain rfl := Option.some.inj hsign
      cases s₁ with
      | negative => exact hx
      | positive => cases hquotient

end Double

open Double in
instance : CountDivision Float where
  zero_lt_one := by decide +kernel
  div_lt := div_lt
  lt_of_lt_div := lt_of_lt_div
  div_lt_of_le := div_lt_of_le
  neg_of_div := neg_of_div

end StudyAnalysis
