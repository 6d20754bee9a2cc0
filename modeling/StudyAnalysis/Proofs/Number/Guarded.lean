/-
**Arithmetic with guards.**

A formula that divides by a difference, or takes the root or the logarithm of one, is only as good
as the sign of that difference.  In the arithmetic of this module every division, every root, every
power and every logarithm is guarded: what is divided by, and what a root, a power or a logarithm is
taken of, has to be positive.  Anything else is refused, and so is whatever is computed from it.

A formula that gives a number in this arithmetic has met positive divisors and radicands only, and
its value is then that of exact arithmetic.  Undefined numbers are those of `PartialReal`, whose
guards are weaker: they let a negative divisor and the root of zero pass.

Main definitions:

* `StudyAnalysis.GuardedReal` — a real number, or nothing;
* `StudyAnalysis.GuardedReal.numeric` — its arithmetic.

Main results:

* `StudyAnalysis.GuardedReal.value_div`, `StudyAnalysis.GuardedReal.sqrt_value`,
  `StudyAnalysis.GuardedReal.pow_value`, `StudyAnalysis.GuardedReal.log_value` — what passes the
  guards;
* `StudyAnalysis.GuardedReal.mean_map_value`, `StudyAnalysis.GuardedReal.foldl_value` — means and
  totals of numbers pass them.
-/

import StudyAnalysis.Proofs.Number.Partial

set_option autoImplicit false
set_option relaxedAutoImplicit false

namespace StudyAnalysis

open Numeric

/-- A real number, or the result of an operation that was refused. -/
def GuardedReal : Type := PartialReal

namespace GuardedReal

open PartialReal (apply apply₂ definedIf)

/-- A number, none of whose operations was refused. -/
def value (x : ℝ) : GuardedReal :=
  PartialReal.value x

/-- The operations of partial arithmetic, with stronger guards for quotients, roots and powers. -/
noncomputable instance numeric : Numeric GuardedReal :=
  { PartialReal.numeric with
    div := apply₂ fun x y => definedIf (0 < y) (x / y)
    sqrt := apply fun x => definedIf (0 < x) (sqrt x)
    pow := apply₂ fun x y => definedIf (0 < x) (pow x y) }

/-! ### Operations on numbers -/

section Operations

variable {x y : ℝ}

theorem numeral_eq (n : ℕ) :
    @OfNat.ofNat GuardedReal n (instNumeral n) = value (@OfNat.ofNat ℝ n (instNumeral n)) := rfl

theorem count_eq {β : Type} (xs : List β) : (count xs : GuardedReal) = value (count xs) := rfl

theorem value_add : value x + value y = value (x + y) := rfl

theorem value_sub : value x - value y = value (x - y) := rfl

theorem value_mul : value x * value y = value (x * y) := rfl

theorem neg_value : -value x = value (-x) := rfl

theorem square_value : square (value x) = value (square x) := rfl

theorem abs_value : Numeric.abs (value x) = value |x| := rfl

theorem signum_value : signum (value x) = value (signum x) := rfl

theorem cbrt_value : cbrt (value x) = value (cbrt x) := rfl

theorem value_le_iff : value x ≤ value y ↔ x ≤ y := Iff.rfl

theorem value_beq : (value x == value y) = decide (x = y) := decide_eq_decide.2 Iff.rfl

/-- A quotient is defined if the divisor is positive. -/
theorem value_div (h : 0 < y) : value x / value y = value (x / y) :=
  if_pos h

/-- A root is defined if the number is positive. -/
theorem sqrt_value (h : 0 < x) : sqrt (value x) = value (Real.sqrt x) :=
  if_pos h

/-- A power is defined if its base is positive. -/
theorem pow_value (h : 0 < x) : pow (value x) (value y) = value (x ^ y) :=
  if_pos h

/-- A logarithm is defined if the number is positive. -/
theorem log_value (h : 0 < x) : log (value x) = value (Real.log x) :=
  if_pos h

end Operations

/-! ### Sums and means -/

/-- What is added up from numbers step by step is a number, if every step gives one. -/
theorem foldl_value {β : Type} {step : ℝ → β → ℝ} {step' : GuardedReal → β → GuardedReal}
    {bs : List β} (h : ∀ b ∈ bs, ∀ total, step' (value total) b = value (step total b))
    (start : ℝ) : bs.foldl step' (value start) = value (bs.foldl step start) :=
  PartialReal.foldl_value h start

/-- **A mean of numbers passes the guards**: the number of values is positive. -/
theorem mean_map_value (xs : List ℝ) : mean (xs.map value) = value (mean xs) := by
  cases xs with
  | nil => rfl
  | cons x xs =>
      have hlength : (0 : ℝ) < count (x :: xs) := Exact.cast_length_pos (List.cons_ne_nil x xs)
      have hsum : sum ((x :: xs).map value) = value (sum (x :: xs)) :=
        PartialReal.sum_map_value (x :: xs)
      have hcount : (count ((x :: xs).map value) : GuardedReal) = value (count (x :: xs)) := by
        rw [count_eq, count, count, List.length_map]
      calc mean ((x :: xs).map value)
          = sum ((x :: xs).map value) / count ((x :: xs).map value) := rfl
        _ = value (sum (x :: xs) / count (x :: xs)) := by rw [hsum, hcount, value_div hlength]
        _ = value (mean (x :: xs)) := rfl

end GuardedReal

end StudyAnalysis
