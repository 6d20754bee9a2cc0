/-
**Decimal digits of a fraction.**

A non-negative fraction is given by its numerator and denominator.  Three kinds of decimals are
computed from it in exact arithmetic: its nearest multiple of `10 ^ -places`, its nearest number of
a fixed count of significant digits, and, for the value of a double, the fewest digits that still
single the double out.

Main definitions:

* `StudyAnalysis.Decimal.roundQuotient` — the whole number nearest to a quotient;
* `StudyAnalysis.Decimal` — a whole number of units of a power of ten;
* `StudyAnalysis.Decimal.significant` — a fraction to a number of significant digits;
* `StudyAnalysis.Decimal.shortest` — the fewest digits that identify a double.

Main results:

* `StudyAnalysis.Decimal.roundQuotient_le`, `StudyAnalysis.Decimal.le_roundQuotient` — the rounded
  quotient is one of the two whole numbers next to the quotient.
-/

import StudyAnalysis.Number.Binary

set_option autoImplicit false
set_option relaxedAutoImplicit false

namespace StudyAnalysis

/-- Which of two equally near neighbours is taken. -/
inductive Tie
  /-- The one whose last digit is even. -/
  | toEven
  /-- The one that is farther from zero. -/
  | away
  deriving DecidableEq

/-- The value `digits * 10 ^ exponent`. -/
structure Decimal where
  digits : Nat
  exponent : Int
  deriving DecidableEq

namespace Decimal

/-- The whole number nearest to `num / den`. -/
def roundQuotient (tie : Tie) (num den : Nat) : Nat :=
  let low := num / den
  match compare (2 * (num % den)) den with
  | .lt => low
  | .gt => low + 1
  | .eq => match tie with
    | .away => low + 1
    | .toEven => if low % 2 = 0 then low else low + 1

theorem le_roundQuotient (tie : Tie) (num den : Nat) : num / den ≤ roundQuotient tie num den := by
  unfold roundQuotient
  dsimp only
  split
  · omega
  · omega
  · split
    · omega
    · split <;> omega

theorem roundQuotient_le (tie : Tie) (num den : Nat) :
    roundQuotient tie num den ≤ num / den + 1 := by
  unfold roundQuotient
  dsimp only
  split
  · omega
  · omega
  · split
    · omega
    · split <;> omega

/-- The number of decimal digits of a whole number; zero has one. -/
def width (n : Nat) : Nat :=
  (Nat.toDigits 10 n).length

/-- The exponent of the leading decimal digit of the positive fraction `num / den`. -/
def leadingExponent (num den : Nat) : Int :=
  if den ≤ num then (width (num / den) : Int) - 1
  else -(width ((den + num - 1) / num - 1) : Int)

/-- Numerator and denominator of the fraction measured in units of `10 ^ exponent`. -/
def inUnits (num den : Nat) (exponent : Int) : Nat × Nat :=
  (num * Nat.pow 10 (-exponent).toNat, den * Nat.pow 10 exponent.toNat)

/-- The number of units of `10 ^ -places` that is nearest to the fraction. -/
def fixed (tie : Tie) (num den places : Nat) : Nat :=
  roundQuotient tie (num * Nat.pow 10 places) den

/-- The decimal of at most `count` significant digits that is nearest to the positive fraction; a
carry into a new leading digit is kept as it is. -/
def significant (tie : Tie) (num den count : Nat) : Decimal :=
  let exponent := leadingExponent num den - count + 1
  let (n, d) := inUnits num den exponent
  ⟨roundQuotient tie n d, exponent⟩

/-- The decimal without its trailing zeros. -/
def trimmed (d : Decimal) : Decimal :=
  if d.digits ≠ 0 ∧ d.digits % 10 = 0 then trimmed ⟨d.digits / 10, d.exponent + 1⟩ else d
termination_by d.digits
decreasing_by simp_all; omega

/-- Whether `digits * 10 ^ exponent` is read back as the double: it lies between the midpoints to
the two neighbouring doubles, and may be a midpoint if the significand is even. -/
def identifies (b : Binary) (digits : Nat) (exponent : Int) : Bool :=
  -- everything is measured in quarters of the last binary place
  let (quarters, unit) := inUnits (4 * b.numerator) b.denominator exponent
  let step := Nat.pow 2 b.exponent.toNat * Nat.pow 10 (-exponent).toNat
  let value := 4 * digits * unit
  let low := quarters - (if b.narrowBelow then step else 2 * step)
  let high := quarters + 2 * step
  if b.significand % 2 = 0 then low ≤ value && value ≤ high else low < value && value < high

/-- Of the two multiples of `10 ^ exponent` around the double, the nearer one that is read back as
the double. -/
def nearest? (tie : Tie) (b : Binary) (exponent : Int) : Option Nat :=
  let (num, den) := inUnits b.numerator b.denominator exponent
  let low := num / den
  let near := roundQuotient tie num den
  let far := if near = low then low + 1 else low
  if identifies b near exponent then some near
  else if identifies b far exponent then some far
  else none

/-- The fewest digits that are read back as the positive double, and of those the nearest to it. -/
def shortest (tie : Tie) (b : Binary) : Decimal :=
  let lead := leadingExponent b.numerator b.denominator
  let found := (List.range 17).findSome? fun (k : Nat) =>
    (nearest? tie b (lead - k)).map fun digits => (⟨digits, lead - k⟩ : Decimal)
  trimmed (found.getD (significant tie b.numerator b.denominator 17))

end Decimal

end StudyAnalysis
