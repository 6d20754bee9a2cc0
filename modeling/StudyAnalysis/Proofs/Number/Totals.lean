/-
**Totals of counts.**

The rows and the columns of a table are added up, and two totals are multiplied and divided by a
third one.  As long as a mantissa holds the totals, none of the sums is rounded.  Products and
quotients are, but they stay far above the least double, so that what is positive remains so.  This
is all that is asked of the numbers of a table, and real numbers and doubles have it.

Main definitions:

* `StudyAnalysis.Numeric.AddsCounts` — the counts up to a bound are added up without rounding.

Main results:

* `StudyAnalysis.Numeric.AddsCounts.sum_map_ofNat` — the sum of the numbers of some counts;
* `StudyAnalysis.Exact.addsCounts` — real numbers add up all counts;
* `StudyAnalysis.Double.ofNat_add` — the sum of two counts as doubles;
* `StudyAnalysis.Double.addsCounts` — **doubles add up counts below `2 ^ 53`**.
-/

import Mathlib
import StudyAnalysis.Proofs.Number.Exact
import StudyAnalysis.Proofs.Number.Quotients

set_option autoImplicit false
set_option relaxedAutoImplicit false

namespace StudyAnalysis

namespace Numeric

variable {α : Type} [Numeric α] {bound : ℕ}

/-- The counts up to a bound are added up without rounding, and what they are multiplied and divided
into stays positive. -/
structure AddsCounts (α : Type) [Numeric α] (bound : ℕ) : Prop where
  emptySum_add {n : ℕ} : n ≤ bound → (emptySum + ofNat n : α) = ofNat n
  ofNat_add {m n : ℕ} : m + n ≤ bound → (ofNat m + ofNat n : α) = ofNat (m + n)
  ofNat_pos {n : ℕ} : 0 < n → n ≤ bound → (0 : α) < ofNat n
  scaled_pos {l m n : ℕ} : 0 < l → 0 < m → 0 < n → l ≤ bound → m ≤ bound → n ≤ bound →
    (0 : α) < ofNat l * ofNat m / ofNat n
  not_nonpos {x : α} : 0 < x → ¬ x ≤ 0

theorem AddsCounts.foldl_map_ofNat (h : AddsCounts α bound) {counts : List ℕ} {start : ℕ}
    (hle : start + counts.sum ≤ bound) :
    (counts.map ofNat).foldl (· + ·) (ofNat start : α) = ofNat (start + counts.sum) := by
  induction counts generalizing start with
  | nil => rfl
  | cons n counts ih =>
      rw [List.sum_cons, ← Nat.add_assoc] at hle ⊢
      rw [List.map_cons, List.foldl_cons, h.ofNat_add (by omega), ih hle]

/-- **The sum of the numbers of some counts** is the number of their sum. -/
theorem AddsCounts.sum_map_ofNat (h : AddsCounts α bound) {counts : List ℕ} (hne : counts ≠ [])
    (hle : counts.sum ≤ bound) : (sum (counts.map ofNat) : α) = ofNat counts.sum := by
  obtain ⟨n, counts, rfl⟩ := List.exists_cons_of_ne_nil hne
  rw [List.sum_cons] at hle ⊢
  -- the sum starts from a zero, which may be a negative one
  rw [sum, List.map_cons, List.foldl_cons, h.emptySum_add (by omega), h.foldl_map_ofNat hle]

end Numeric

/-! ### Real numbers -/

/-- **Real numbers add up all counts.** -/
theorem Exact.addsCounts (bound : ℕ) : Numeric.AddsCounts ℝ bound where
  emptySum_add _ := zero_add _
  ofNat_add _ := (Nat.cast_add _ _).symm
  ofNat_pos hn _ := by
    rw [numeral_zero]
    exact Nat.cast_pos.2 hn
  scaled_pos hl hm hn _ _ _ := by
    rw [numeral_zero]
    exact div_pos (mul_pos (Nat.cast_pos.2 hl) (Nat.cast_pos.2 hm)) (Nat.cast_pos.2 hn)
  not_nonpos := not_le_of_gt

instance : TotallyOrdered ℝ where
  totalLe_trans hxy hyz :=
    Exact.totalLe_iff.2 ((Exact.totalLe_iff.1 hxy).trans (Exact.totalLe_iff.1 hyz))
  totalLe_total x y := by
    rw [Exact.totalLe_iff, Exact.totalLe_iff]
    exact le_total x y

/-! ### Doubles -/

namespace Double

open Float.Model UnpackedFloat

variable {l m n : ℕ} {u : UnpackedFloat}

/-- A count is rounded to its mantissa, however far it is shifted beyond it. -/
theorem round_shiftLeft {k : ℕ} (hpos : 0 < n) (hn : n < 2 ^ 53) (hk : 52 - n.log2 ≤ k) :
    UnpackedFloat.round Format.binary64 .positive (n <<< k) (-k) =
      .finite .positive (mantissaOf n) (exponentOf n) (mantissaOf_pos hpos) := by
  obtain ⟨hm, hm'⟩ := mantissaOf_bounds hpos hn
  have he : -1074 ≤ exponentOf n := by
    rw [exponentOf]
    omega
  obtain ⟨j, rfl⟩ := Nat.exists_eq_add_of_le hk
  have hexponent : (-(52 - n.log2 + j : ℕ) : ℤ) = exponentOf n - j := by
    rw [exponentOf]
    push_cast
    ring
  have hnone : (exponentOf n - j - exponentOf n).toNat = 0 := by omega
  rw [hexponent, Nat.shiftLeft_add, ← mantissaOf, UnpackedFloat.round,
    targetExponent_shiftLeft j hm hm' he, decreaseExponent]
  dsimp only
  rw [hnone, Nat.shiftLeft_zero, Nat.cast_zero, sub_zero]
  exact roundWithAccuracy_shiftLeft j hm hm' he

/-- **Two counts are added without rounding.** -/
theorem add_counts (hm : 0 < m) (hn : 0 < n) (h : m + n < 2 ^ 53) :
    UnpackedFloat.add Format.binary64
        (.finite .positive (mantissaOf m) (exponentOf m) (mantissaOf_pos hm))
        (.finite .positive (mantissaOf n) (exponentOf n) (mantissaOf_pos hn)) =
      .finite .positive (mantissaOf (m + n)) (exponentOf (m + n))
        (mantissaOf_pos (Nat.add_pos_left hm n)) := by
  obtain ⟨k, hk⟩ : ∃ k : ℕ, min (exponentOf m) (exponentOf n) = -k :=
    ⟨(-min (exponentOf m) (exponentOf n)).toNat, by rw [exponentOf, exponentOf]; omega⟩
  have hbits : 52 - (m + n).log2 ≤ k := by
    have hlog : m.log2 ≤ (m + n).log2 := (Nat.le_log2 (Nat.add_pos_left hm n).ne').2
      ((Nat.log2_self_le hm.ne').trans (Nat.le_add_right m n))
    have hmin : min (exponentOf m) (exponentOf n) ≤ exponentOf m := min_le_left _ _
    rw [hk, exponentOf] at hmin
    omega
  have hsum : ((m <<< k : ℕ) : ℤ) + (n <<< k : ℕ) = ((m + n) <<< k : ℕ) := by
    rw [Nat.shiftLeft_eq, Nat.shiftLeft_eq, Nat.shiftLeft_eq, add_mul]
    push_cast
    rfl
  have hpos : compare (((m + n) <<< k : ℕ) : ℤ) 0 = .gt := by
    rw [Int.compare_eq_gt, Nat.shiftLeft_eq]
    positivity
  rw [UnpackedFloat.add]
  dsimp only [decreaseExponent, Sign.apply]
  rw [mantissaOf_shiftLeft (min_le_left _ _), mantissaOf_shiftLeft (min_le_right _ _), hk, neg_neg,
    Int.toNat_natCast, hsum, UnpackedFloat.normalize, hpos]
  exact round_shiftLeft (Nat.add_pos_left hm n) h hbits

/-- **The sum of two counts as doubles.** -/
theorem ofNat_add (h : m + n < 2 ^ 53) : Float.ofNat m + Float.ofNat n = Float.ofNat (m + n) := by
  change Float.ofModel (pack (UnpackedFloat.add Format.binary64 (Float.ofNat m).toModel.unpack
    (Float.ofNat n).toModel.unpack)) = Float.ofModel (Float.ofNat (m + n)).toModel
  rcases Nat.eq_zero_or_pos m with rfl | hm
  · rcases Nat.eq_zero_or_pos n with rfl | hn
    · decide +kernel
    · rw [zero_unpack, unpack_ofNat hn (by omega), Nat.zero_add, toModel_ofNat hn (by omega)]
      rfl
  · rcases Nat.eq_zero_or_pos n with rfl | hn
    · rw [zero_unpack, unpack_ofNat hm (by omega), Nat.add_zero, toModel_ofNat hm (by omega)]
      rfl
    · rw [unpack_ofNat hm (by omega), unpack_ofNat hn (by omega), add_counts hm hn h,
        toModel_ofNat (Nat.add_pos_left hm n) h]

/-- The sum of no doubles is the negative zero, and adding to it keeps a count. -/
theorem emptySum_add (hn : n < 2 ^ 53) : Numeric.emptySum + Float.ofNat n = Float.ofNat n := by
  rcases Nat.eq_zero_or_pos n with rfl | hpos
  · decide +kernel
  have hzero : (Numeric.emptySum : Float).toModel.toBits.toBitVec =
      packedZero Format.binary64 .negative := by
    decide +kernel
  change Float.ofModel (pack (UnpackedFloat.add Format.binary64
    (UnpackedFloat.unpack Format.binary64 (Numeric.emptySum : Float).toModel.toBits.toBitVec)
    (Float.ofNat n).toModel.unpack)) = Float.ofModel (Float.ofNat n).toModel
  rw [hzero, unpack_packedZero, unpack_ofNat hpos hn, toModel_ofNat hpos hn]
  rfl

/-! ### Products and quotients of counts -/

/-- What is not below the least double of a full mantissa is not rounded to zero. -/
theorem nearest_pos {r : ℚ} (hr : 2 ^ (-1022 : ℤ) ≤ r) : 0 < nearest r := by
  have hleast : nearest ((2 ^ 52 : ℕ) * 2 ^ (-1074 : ℤ)) = (2 ^ 52 : ℕ) * 2 ^ (-1074 : ℤ) :=
    nearest_of_canonical ⟨by norm_num, le_refl _, .inr rfl⟩ (by positivity)
  have hvalue : ((2 ^ 52 : ℕ) : ℚ) * 2 ^ (-1074 : ℤ) = 2 ^ (-1022 : ℤ) := by
    rw [Nat.cast_pow, Nat.cast_ofNat, ← zpow_natCast, ← zpow_add₀ two_ne_zero]
    rfl
  have hmono := nearest_mono (by positivity) (hvalue.trans_le hr)
  rw [hleast] at hmono
  exact lt_of_lt_of_le (by positivity) hmono

theorem cap_pos {r : ℚ} (hr : 0 < r) : 0 < cap r := by
  rw [cap]
  split
  · exact WithTop.coe_pos.2 hr
  · exact WithTop.coe_lt_top 0

theorem nearest_lt {r : ℚ} (hpos : 0 < r) (hr : r ≤ 2 ^ 106) : nearest r < 2 ^ 1024 := by
  have hvalue : ((2 ^ 52 : ℕ) : ℚ) * 2 ^ (54 : ℤ) = 2 ^ 106 := by norm_num
  have hmono := nearest_mono hpos hr
  rw [← hvalue, nearest_of_canonical ⟨by norm_num, by norm_num, .inl (le_refl _)⟩ (by positivity),
    hvalue] at hmono
  exact hmono.trans_lt (pow_lt_pow_right₀ one_lt_two (by decide))

/-- A double that is not below zero and has a size is positive. -/
theorem Upward.points (h : Upward u) (hpos : 0 < size u) : Points .positive u := by
  cases h with
  | zero s => exact absurd hpos (lt_irrefl _)
  | finite hc => exact .finite
  | infinity => exact .infinity

/-- The product of two counts is the nearest double. -/
theorem upward_mul_ofNat (hm : 0 < m) (hn : 0 < n) (hm' : m < 2 ^ 53) (hn' : n < 2 ^ 53) :
    Upward (Float.ofNat m * Float.ofNat n).toModel.unpack ∧
      size (Float.ofNat m * Float.ofNat n).toModel.unpack = nearest (m * n) := by
  change Upward (unpack (pack (UnpackedFloat.mul Format.binary64 (Float.ofNat m).toModel.unpack
      (Float.ofNat n).toModel.unpack))) ∧
    size (unpack (pack (UnpackedFloat.mul Format.binary64 (Float.ofNat m).toModel.unpack
      (Float.ofNat n).toModel.unpack))) = _
  rw [unpack_ofNat hm hm', unpack_ofNat hn hn']
  obtain ⟨hfull, -⟩ := mantissaOf_bounds hm hm'
  have hmantissa : 0 < mantissaOf m * mantissaOf n :=
    Nat.mul_pos (mantissaOf_pos hm) (mantissaOf_pos hn)
  have hready : Ready (mantissaOf m * mantissaOf n) (exponentOf m + exponentOf n) := by
    have hlog : 52 ≤ (mantissaOf m * mantissaOf n).log2 :=
      (Nat.le_log2 hmantissa.ne').2 (hfull.trans (Nat.le_mul_of_pos_right _ (mantissaOf_pos hn)))
    rw [Ready, targetExponent_eq, totalExponent]
    omega
  have hlocates : Locates .exact (mantissaOf m * mantissaOf n)
      ((mantissaOf m * mantissaOf n : ℕ) : ℚ) := rfl
  have hround := upward_round hlocates (Nat.cast_pos.2 hmantissa) hready
  have hvalue : ((mantissaOf m * mantissaOf n : ℕ) : ℚ) * 2 ^ (exponentOf m + exponentOf n) =
      m * n := by
    rw [← mantissaOf_mul_exponentOf m, ← mantissaOf_mul_exponentOf n, zpow_add₀ two_ne_zero]
    push_cast
    ring
  rw [hvalue] at hround
  refine ⟨hround.1, hround.2.trans (if_pos (nearest_lt (by positivity) ?_))⟩
  calc (m * n : ℚ) ≤ 2 ^ 53 * 2 ^ 53 := by
        gcongr
        · exact_mod_cast hm'.le
        · exact_mod_cast hn'.le
    _ = 2 ^ 106 := by norm_num

/-- **The share of two counts in a third one does not vanish.** -/
theorem scaled_pos (hl : 0 < l) (hm : 0 < m) (hn : 0 < n) (hl' : l < 2 ^ 53) (hm' : m < 2 ^ 53)
    (hn' : n < 2 ^ 53) : Float.ofNat 0 < Float.ofNat l * Float.ofNat m / Float.ofNat n := by
  obtain ⟨hproduct, hsize⟩ := upward_mul_ofNat hl hm hl' hm'
  obtain ⟨hcount, hsizen⟩ := size_ofNat hn
  rw [nearest_natCast hn hn'] at hsizen
  have hfinite : size (Float.ofNat l * Float.ofNat m).toModel.unpack ≠ ⊤ := by
    rw [hsize]
    exact WithTop.coe_ne_top
  obtain ⟨hquotient, hsizeq⟩ := upward_quotient hproduct hfinite hn
  have hshare : (2 : ℚ) ^ (-1022 : ℤ) ≤ nearest (l * m) / n := by
    have hone : 1 ≤ nearest (l * m) :=
      one_le_nearest (by exact_mod_cast Nat.mul_pos hl hm)
    calc (2 : ℚ) ^ (-1022 : ℤ) ≤ 2 ^ (-53 : ℤ) := zpow_le_zpow_right₀ one_le_two (by decide)
      _ = 1 / 2 ^ 53 := by norm_num
      _ ≤ nearest (l * m) / n := by
          gcongr
          exact_mod_cast hn'.le
  rw [hsize, hsizen, cap, if_pos (lt_trans (by exact_mod_cast hn')
    (pow_lt_pow_right₀ one_lt_two (by decide)))] at hsizeq
  refine pos_iff.2 (hquotient.points ?_)
  rw [hsizeq]
  exact cap_pos (nearest_pos hshare)

theorem not_nonpos {x : Float} (h : Float.ofNat 0 < x) : ¬ x ≤ Float.ofNat 0 := by
  rw [pos_iff] at h
  rw [le_iff, zero_unpack]
  generalize x.toModel.unpack = u at h
  cases h <;> exact Bool.false_ne_true

/-- **Doubles add up counts** as far as a mantissa holds the total. -/
theorem addsCounts {bound : ℕ} (hbound : bound < 2 ^ 53) : Numeric.AddsCounts Float bound where
  emptySum_add hn := emptySum_add (by omega)
  ofNat_add h := ofNat_add (by omega)
  ofNat_pos hpos hn := by
    refine pos_iff.2 ?_
    change Points .positive (Float.ofNat _).toModel.unpack
    rw [unpack_ofNat hpos (by omega)]
    exact .finite
  scaled_pos hl hm hn hl' hm' hn' := scaled_pos hl hm hn (by omega) (by omega) (by omega)
  not_nonpos := not_nonpos

end Double

end StudyAnalysis
