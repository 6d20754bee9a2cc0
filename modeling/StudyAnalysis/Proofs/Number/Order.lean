/-
**The order of computed numbers.**

Thresholds and filters compare numbers, and what they promise rests on three facts: an order that
goes on, one answer to whether two numbers are equal, and an answer for every two numbers that are
defined.  They are collected in `OrderFaithful`, and doubles have them.  The order in which samples
are sorted is another one, and it is total (`TotallyOrdered`).

A double in parts has a place in a lexicographic order of integers: its side of zero, then its
exponent, then its mantissa, the latter two turned around below zero.  All laws of the comparisons
are those of that order; only what is not a number has no place in it.

Main definitions:

* `StudyAnalysis.OrderFaithful` — the comparisons of a type of numbers agree with each other;
* `StudyAnalysis.TotallyOrdered` — samples are sorted by a total order;
* `StudyAnalysis.Double.place` — the place of a double in parts.

Main results:

* `StudyAnalysis.Double.compare_eq_compare_place` — **doubles compare as their places do**.
-/

import Mathlib
import StudyAnalysis.Proofs.Number.Signs

set_option autoImplicit false
set_option relaxedAutoImplicit false

namespace StudyAnalysis

/-- Numbers whose comparisons agree with each other. -/
class OrderFaithful (α : Type) [Numeric α] : Prop where
  le_trans {x y z : α} : x ≤ y → y ≤ z → x ≤ z
  /-- Numbers are equal exactly if they compare as equal. -/
  beq_iff {x y : α} : (x == y) = true ↔ Numeric.order? x y = some .eq
  /-- A finite number compares with every number that is equal to itself. -/
  isSome_order? {x y : α} : Numeric.isFinite x = true → (y == y) = true →
    (Numeric.order? x y).isSome = true

/-- Numbers whose samples are sorted by a total order. -/
class TotallyOrdered (α : Type) [Numeric α] : Prop where
  totalLe_trans {x y z : α} : Numeric.totalLe x y = true → Numeric.totalLe y z = true →
    Numeric.totalLe x z = true
  totalLe_total (x y : α) : Numeric.totalLe x y = true ∨ Numeric.totalLe y x = true

namespace Double

open Float.Model UnpackedFloat

variable {u v : UnpackedFloat}

/-! ### Places -/

/-- The place of a double in parts: on one side of zero the exponent counts before the mantissa, and
below zero both count downwards. -/
def place : UnpackedFloat → ℤ ×ₗ ℤ ×ₗ ℤ
  | .infinity s => toLex (s.apply 2, toLex (0, 0))
  | .notANumber | .zero _ => toLex (0, toLex (0, 0))
  | .finite s m e _ => toLex (s.apply 1, toLex (s.apply e, s.apply m))

theorem compare_place_finite {s : Sign} {m m' : ℕ} {e e' : ℤ} {hm : 0 < m} {hm' : 0 < m'} :
    compare (place (.finite s m e hm)) (place (.finite s m' e' hm')) =
      (compare (s.apply e) (s.apply e')).then (compare (s.apply m) (s.apply m')) := by
  cases s <;> rfl

theorem compare_neg_neg (i j : ℤ) : compare (-i) (-j) = (compare i j).swap := by
  rcases lt_trichotomy i j with h | rfl | h
  · rw [compare_lt_iff_lt.2 h, compare_gt_iff_gt.2 (neg_lt_neg h)]
    rfl
  · rw [compare_eq_iff_eq.2 rfl, compare_eq_iff_eq.2 rfl]
    rfl
  · rw [compare_gt_iff_gt.2 h, compare_lt_iff_lt.2 (neg_lt_neg h)]
    rfl

theorem compare_natCast (m n : ℕ) : compare (m : ℤ) n = compare m n := by
  rcases lt_trichotomy m n with h | rfl | h
  · rw [compare_lt_iff_lt.2 h, compare_lt_iff_lt.2 (Int.ofNat_lt.2 h)]
  · rw [compare_eq_iff_eq.2 rfl, compare_eq_iff_eq.2 rfl]
  · rw [compare_gt_iff_gt.2 h, compare_gt_iff_gt.2 (Int.ofNat_lt.2 h)]

/-- **Doubles compare as their places do.** -/
theorem compare_eq_compare_place (hu : u ≠ .notANumber) (hv : v ≠ .notANumber) :
    u.compare v = some (compare (place u) (place v)) := by
  -- the two sides of zero differ already in the first part of the place
  rcases u with (_ | _) | _ | _ | ⟨_ | _, m, e, _⟩ <;>
    rcases v with (_ | _) | _ | _ | ⟨_ | _, m', e', _⟩ <;>
      first | exact absurd rfl hu | exact absurd rfl hv | rfl | rw [compare_place_finite]
  · simp only [Sign.apply, compare_neg_neg, compare_natCast, UnpackedFloat.compare,
      Ordering.swap_then]
  · simp only [Sign.apply, compare_natCast, UnpackedFloat.compare]

/-- What is not a number compares with nothing. -/
theorem ne_notANumber_of_compare {o : Ordering} (h : u.compare v = some o) :
    u ≠ .notANumber ∧ v ≠ .notANumber := by
  constructor
  · rintro rfl
    cases h
  · rintro rfl
    rcases u with (_ | _) | _ | _ | ⟨_ | _, _, _, _⟩ <;> cases h

/-- A double is at most another one exactly if both are numbers and its place is not after that of
the other. -/
theorem le_iff_place : u.le v = true ↔
    u ≠ .notANumber ∧ v ≠ .notANumber ∧ place u ≤ place v := by
  rw [UnpackedFloat.le, Option.any_eq_true]
  constructor
  · rintro ⟨o, ho, hle⟩
    obtain ⟨hu, hv⟩ := ne_notANumber_of_compare ho
    rw [compare_eq_compare_place hu hv] at ho
    obtain rfl := Option.some.inj ho
    exact ⟨hu, hv, compare_le_iff_le.1 (Ordering.isLE_iff_ne_gt.1 hle)⟩
  · rintro ⟨hu, hv, hle⟩
    exact ⟨_, compare_eq_compare_place hu hv, Ordering.isLE_iff_ne_gt.2 (compare_le_iff_le.2 hle)⟩

/-! ### Floating point -/

variable {x y : Float}

theorem le_iff : x ≤ y ↔ x.toModel.unpack.le y.toModel.unpack = true := by
  change decide (x.toModel ≤ y.toModel) = true ↔ _
  rw [decide_eq_true_iff]
  rfl

/-- Doubles are compared in their parts. -/
theorem order?_eq_compare (x y : Float) :
    Numeric.order? x y = x.toModel.unpack.compare y.toModel.unpack := by
  have hlt : x < y ↔ x.toModel.unpack.compare y.toModel.unpack = some .lt := lt_iff
  have hbeq : (x == y) = (x.toModel.unpack.compare y.toModel.unpack == some .eq) := rfl
  have hgt : y < x ↔ x.toModel.unpack.compare y.toModel.unpack = some .gt := by
    rw [lt_iff, ← compare_swap]
    rcases x.toModel.unpack.compare y.toModel.unpack with _ | _ | _ | _ <;> decide
  generalize x.toModel.unpack.compare y.toModel.unpack = answer at hlt hbeq hgt
  simp only [Numeric.order?, hlt, hbeq, hgt]
  rcases answer with _ | _ | _ | _ <;> rfl

/-- Comparing two doubles the other way around gives the opposite answer. -/
theorem order?_swap (x y : Float) :
    (Numeric.order? x y).map Ordering.swap = Numeric.order? y x := by
  rw [order?_eq_compare, order?_eq_compare, compare_swap]

/-- Of two equal doubles neither is below the other. -/
theorem not_lt_of_beq (h : (x == y) = true) : ¬ x < y ∧ ¬ y < x := by
  have hbeq : x.toModel.unpack.compare y.toModel.unpack = some .eq := eq_of_beq h
  have hswap := compare_swap x.toModel.unpack y.toModel.unpack
  rw [lt_iff, lt_iff, ← hswap, hbeq]
  exact ⟨by decide, by decide⟩

theorem order?_self (h : x.toModel.unpack ≠ .notANumber) : Numeric.order? x x = some .eq := by
  rw [order?_eq_compare, compare_eq_compare_place h h, compare_eq_iff_eq.2 rfl]

theorem ne_notANumber_of_isFinite (hx : x.isFinite = true) : x.toModel.unpack ≠ .notANumber := by
  intro h
  change UnpackedFloat.isFinite x.toModel.unpack = true at hx
  rw [h] at hx
  cases hx

/-- Two numbers are equal exactly if they have the same place. -/
theorem beq_iff_place (hx : x.toModel.unpack ≠ .notANumber) (hy : y.toModel.unpack ≠ .notANumber) :
    (x == y) = true ↔ place x.toModel.unpack = place y.toModel.unpack := by
  change (x.toModel.unpack.compare y.toModel.unpack == some .eq) = true ↔ _
  rw [compare_eq_compare_place hx hy, beq_iff_eq, Option.some.injEq, compare_eq_iff_eq]

theorem isSome_order? (hx : x.isFinite = true) (hy : (y == y) = true) :
    (Numeric.order? x y).isSome = true := by
  have hunpacky : y.toModel.unpack ≠ .notANumber := by
    change (y.toModel.unpack.compare y.toModel.unpack == some .eq) = true at hy
    exact (ne_notANumber_of_compare (eq_of_beq hy)).1
  rw [order?_eq_compare, compare_eq_compare_place (ne_notANumber_of_isFinite hx) hunpacky]
  rfl

end Double

open Double in
instance : OrderFaithful Float where
  le_trans {x y z} hxy hyz := by
    obtain ⟨hx, -, hxy⟩ := le_iff_place.1 (le_iff.1 hxy)
    obtain ⟨-, hz, hyz⟩ := le_iff_place.1 (le_iff.1 hyz)
    exact le_iff.2 (le_iff_place.2 ⟨hx, hz, hxy.trans hyz⟩)
  beq_iff {x y} := by
    rw [order?_eq_compare]
    exact beq_iff_eq (a := x.toModel.unpack.compare y.toModel.unpack)
  isSome_order? := isSome_order?

instance : TotallyOrdered Float where
  totalLe_trans hxy hyz :=
    decide_eq_true (UInt64.le_trans (of_decide_eq_true hxy) (of_decide_eq_true hyz))
  totalLe_total x y := by
    rcases UInt64.le_total (Double.orderKey x) (Double.orderKey y) with h | h
    · exact .inl (decide_eq_true h)
    · exact .inr (decide_eq_true h)

end StudyAnalysis
