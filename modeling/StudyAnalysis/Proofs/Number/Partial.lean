/-
**Arithmetic that can be undefined.**

Over the real numbers a division by zero is zero, and so a statistic that divides by zero is a
number like any other.  In floating point it is none.  This module adds to the real numbers what is
undefined: a division by zero, the root of a negative number, the logarithm of what is not positive,
and whatever is computed from one of these.  What is undefined is not less than, equal to or greater
than anything.

A computation that gives a defined result in this arithmetic has never divided by zero on its way,
and its result is then that of exact arithmetic.

Main definitions:

* `StudyAnalysis.PartialReal` — a real number, or nothing that is defined;
* `StudyAnalysis.PartialReal.numeric` — its arithmetic.

Main results:

* `StudyAnalysis.PartialReal.value_div`, `StudyAnalysis.PartialReal.sqrt_value` — when operations
  are defined;
* `StudyAnalysis.PartialReal.foldl_value` — computations step by step;
* `StudyAnalysis.PartialReal.sum_map_value`, `StudyAnalysis.PartialReal.mean_map_value` — **sums and
  means of numbers are defined**.
-/

import StudyAnalysis.Proofs.Statistics.Descriptive

set_option autoImplicit false
set_option relaxedAutoImplicit false

namespace StudyAnalysis

open Numeric

/-- A real number, or the result of an operation that has none. -/
inductive PartialReal
  | undefined
  | value (x : ℝ)

namespace PartialReal

/-- An operation on a number; of what is undefined it is undefined. -/
noncomputable def apply (f : ℝ → PartialReal) : PartialReal → PartialReal
  | undefined => undefined
  | value x => f x

/-- An operation on two numbers, undefined if one of them is. -/
noncomputable def apply₂ (f : ℝ → ℝ → PartialReal) (a b : PartialReal) : PartialReal :=
  a.apply fun x => b.apply fun y => f x y

/-- A relation between two numbers, which nothing undefined is in. -/
def Both (r : ℝ → ℝ → Prop) : PartialReal → PartialReal → Prop
  | value x, value y => r x y
  | _, _ => False

/-- The result of an operation where it has one. -/
noncomputable def definedIf (p : Prop) (x : ℝ) : PartialReal :=
  open Classical in if p then value x else undefined

/-- The numbers with the operations that real arithmetic has, where they are defined.  What is
undefined comes last in the order of samples, counts as zero, and is not finite. -/
noncomputable instance numeric : Numeric PartialReal where
  add := apply₂ fun x y => value (x + y)
  sub := apply₂ fun x y => value (x - y)
  mul := apply₂ fun x y => value (x * y)
  div := apply₂ fun x y => definedIf (y ≠ 0) (x / y)
  neg := apply fun x => value (-x)
  lt := Both (· < ·)
  le := Both (· ≤ ·)
  beq a b := open Classical in decide (Both (· = ·) a b)
  ofNat n := value (ofNat n)
  ofInt n := value (ofInt n)
  emptySum := value emptySum
  decLt _ _ := Classical.propDecidable _
  decLe _ _ := Classical.propDecidable _
  totalLe a b := open Classical in decide (b = undefined ∨ Both (· ≤ ·) a b)
  abs := apply fun x => value (Numeric.abs x)
  signum := apply fun x => value (signum x)
  sqrt := apply fun x => definedIf (0 ≤ x) (sqrt x)
  cbrt := apply fun x => value (cbrt x)
  pow := apply₂ fun x y => definedIf (0 < x ∨ x = 0 ∧ 0 ≤ y) (pow x y)
  log := apply fun x => definedIf (0 < x) (log x)
  exp := apply fun x => value (exp x)
  logFactorial n := value (logFactorial n)
  floor := apply fun x => value (floor x)
  ceil := apply fun x => value (ceil x)
  toNat
    | undefined => 0
    | value x => toNat x
  isFinite
    | undefined => false
    | value _ => true

/-! ### Operations on numbers -/

section Operations

variable {x y : ℝ}

theorem ofNat_eq (n : ℕ) : (ofNat n : PartialReal) = value (ofNat n) := rfl

theorem numeral_eq (n : ℕ) :
    @OfNat.ofNat PartialReal n (instNumeral n) = value (@OfNat.ofNat ℝ n (instNumeral n)) := rfl

theorem count_eq {β : Type} (xs : List β) : (count xs : PartialReal) = value (count xs) := rfl

theorem value_sub : value x - value y = value (x - y) := rfl

theorem value_mul : value x * value y = value (x * y) := rfl

theorem square_value : square (value x) = value (square x) := rfl

theorem value_lt_iff : value x < value y ↔ x < y := Iff.rfl

theorem value_le_iff : value x ≤ value y ↔ x ≤ y := Iff.rfl

/-- **A quotient is defined if the divisor is not zero.** -/
theorem value_div (h : y ≠ 0) : value x / value y = value (x / y) :=
  if_pos h

/-- **A root is defined if the number is not negative.** -/
theorem sqrt_value (h : 0 ≤ x) : sqrt (value x) = value (sqrt x) :=
  if_pos h

theorem clamp_value (low high : ℝ) :
    clamp (value low) (value high) (value x) = value (clamp low high x) := by
  simp only [clamp, value_lt_iff, apply_ite value]

end Operations

/-! ### Sums and means -/

section Sums

variable {β : Type} (xs : List ℝ)

/-- What is computed from numbers step by step is a number, if every step gives one. -/
theorem foldl_value {step : ℝ → β → ℝ} {step' : PartialReal → β → PartialReal} {bs : List β}
    (h : ∀ b ∈ bs, ∀ total, step' (value total) b = value (step total b)) (start : ℝ) :
    bs.foldl step' (value start) = value (bs.foldl step start) := by
  induction bs generalizing start with
  | nil => rfl
  | cons b bs ih =>
      rw [List.foldl_cons, List.foldl_cons, h b List.mem_cons_self,
        ih fun b hb => h b (List.mem_cons_of_mem _ hb)]

/-- **A sum of numbers is defined.** -/
theorem sum_map_value : sum (xs.map value) = value (sum xs) := by
  rw [sum, List.foldl_map]
  exact foldl_value (fun _ _ _ => rfl) emptySum

/-- **A mean of numbers is defined**, also that of none. -/
theorem mean_map_value : mean (xs.map value) = value (mean xs) := by
  cases xs with
  | nil => rfl
  | cons x xs =>
      have hlength : (count (x :: xs) : ℝ) ≠ 0 :=
        (Exact.cast_length_pos (List.cons_ne_nil x xs)).ne'
      have hcount : (count ((x :: xs).map value) : PartialReal) = value (count (x :: xs)) := by
        rw [count_eq, count, count, List.length_map]
      calc mean ((x :: xs).map value)
          = sum ((x :: xs).map value) / count ((x :: xs).map value) := rfl
        _ = value (sum (x :: xs) / count (x :: xs)) := by
            rw [sum_map_value, hcount, value_div hlength]
        _ = value (mean (x :: xs)) := rfl

end Sums

end PartialReal

end StudyAnalysis
