/-
**The exact value of a binary floating-point number.**

A finite double is a whole number times a power of two.  This module reads the sign, the whole
number and the exponent off its bits; the decimal texts of a double are computed from these alone,
in exact whole-number arithmetic.

Main definitions:

* `StudyAnalysis.Binary` — sign, significand and exponent;
* `StudyAnalysis.Binary.ofFloat` — the parts of a finite double.
-/

import StudyAnalysis.Number.Word

set_option autoImplicit false
set_option relaxedAutoImplicit false

namespace StudyAnalysis

/-- The value `±significand * 2 ^ exponent` of a finite double. -/
structure Binary where
  /-- Whether the sign bit is set, also for a zero. -/
  negative : Bool
  /-- The whole number that is scaled. -/
  significand : Nat
  /-- The power of two that it is scaled by. -/
  exponent : Int
  /-- Whether the next double towards zero is only half a step away, as it is just above a power of
  two. -/
  narrowBelow : Bool
  deriving DecidableEq

namespace Binary

/-- The parts of a finite double. -/
def ofFloat (x : Float) : Binary :=
  let bits := x.toBits.toNat
  let hidden := Nat.pow 2 52
  let fraction := bits % hidden
  let scale : Nat := bits / hidden % 2048
  let negative : Bool := Word.size / 2 ≤ bits
  if scale = 0 then ⟨negative, fraction, -1074, false⟩
  else ⟨negative, hidden + fraction, (scale : Int) - 1075, fraction = 0 && 1 < scale⟩

/-- The numerator of the value, without its sign. -/
def numerator (b : Binary) : Nat :=
  b.significand * Nat.pow 2 b.exponent.toNat

/-- The denominator of the value; it is a power of two. -/
def denominator (b : Binary) : Nat :=
  Nat.pow 2 (-b.exponent).toNat

theorem denominator_pos (b : Binary) : 0 < b.denominator :=
  Nat.two_pow_pos _

/-- The sign character of the number, if it is written with one. -/
def sign (b : Binary) : String :=
  if b.negative then "-" else ""

end Binary

end StudyAnalysis
