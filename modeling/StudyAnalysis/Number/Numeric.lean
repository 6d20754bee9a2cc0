/-
**The numbers that statistics are computed with.**

Every statistic of the library is written over an arbitrary type of numbers, so that one definition
is both run on binary floating point and reasoned about in exact arithmetic.  This module holds the
operations that such a type has to offer and the few functions that are built from them alone.

Two points are left to the type because floating point tells apart what exact arithmetic does not:
`Numeric.emptySum` is the sum of nothing (a negative zero in floating point), and
`Numeric.totalLe` is the total order that samples are sorted by (it puts a negative zero before a
positive one and what is not a number last).

Main definitions:

* `StudyAnalysis.Numeric` — the operations;
* `StudyAnalysis.Numeric.sum` — the left-to-right sum of a list;
* `StudyAnalysis.Numeric.clamp` — a number moved into an interval;
* `StudyAnalysis.Numeric.order?` — how two numbers compare, if they do.
-/

set_option autoImplicit false
set_option relaxedAutoImplicit false

namespace StudyAnalysis

/-- A type of numbers with the arithmetic, the comparisons and the elementary functions that the
statistics need. -/
class Numeric (α : Type) extends Add α, Sub α, Mul α, Div α, Neg α, LT α, LE α, BEq α where
  /-- The number of a count. -/
  ofNat : Nat → α
  /-- The number nearest to an integer. -/
  ofInt : Int → α
  /-- The sum of no numbers, from which every sum starts. -/
  emptySum : α
  /-- Strict comparison is decidable. -/
  decLt (x y : α) : Decidable (x < y)
  /-- Weak comparison is decidable. -/
  decLe (x y : α) : Decidable (x ≤ y)
  /-- The total order in which samples are sorted. -/
  totalLe : α → α → Bool
  /-- The absolute value. -/
  abs : α → α
  /-- One with the sign of the number; zero counts as positive. -/
  signum : α → α
  /-- The square root. -/
  sqrt : α → α
  /-- The cube root. -/
  cbrt : α → α
  /-- The power of a base to an exponent. -/
  pow : α → α → α
  /-- The natural logarithm. -/
  log : α → α
  /-- The exponential function. -/
  exp : α → α
  /-- The natural logarithm of the factorial of a count. -/
  logFactorial : Nat → α
  /-- The greatest whole number that is not above the number. -/
  floor : α → α
  /-- The least whole number that is not below the number. -/
  ceil : α → α
  /-- The whole part of a number as a count; a negative number counts as zero. -/
  toNat : α → Nat
  /-- Whether the number is neither infinite nor undefined. -/
  isFinite : α → Bool

namespace Numeric

variable {α : Type} [Numeric α]

instance instDecidableLt (x y : α) : Decidable (x < y) := decLt x y

instance instDecidableLe (x y : α) : Decidable (x ≤ y) := decLe x y

/-- A numeral stands for the number of that count. -/
instance (priority := low) instNumeral (n : Nat) : OfNat α n := ⟨ofNat n⟩

/-- The left-to-right sum of a list. -/
def sum (xs : List α) : α :=
  xs.foldl (· + ·) emptySum

@[simp] theorem sum_nil : sum ([] : List α) = emptySum := rfl

theorem sum_append_singleton (xs : List α) (x : α) : sum (xs ++ [x]) = sum xs + x := by
  simp [sum]

/-- The number of elements of a list, as a number. -/
def count {β : Type} (xs : List β) : α :=
  ofNat xs.length

/-- The product of a number with itself. -/
def square (x : α) : α :=
  x * x

/-- The number moved to the nearer end of an interval that it lies outside of. -/
def clamp (low high x : α) : α :=
  if x < low then low else if high < x then high else x

/-- How two numbers compare; `none` if neither of them is below or equal to the other. -/
def order? (x y : α) : Option Ordering :=
  if x < y then some .lt
  else if x == y then some .eq
  else if y < x then some .gt
  else none

/-- The sample in ascending order. -/
def sorted (xs : List α) : List α :=
  xs.mergeSort totalLe

theorem sorted_perm (xs : List α) : (sorted xs).Perm xs :=
  List.mergeSort_perm xs totalLe

@[simp] theorem length_sorted (xs : List α) : (sorted xs).length = xs.length :=
  (sorted_perm xs).length_eq

end Numeric

end StudyAnalysis
