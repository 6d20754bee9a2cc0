/-
**Double precision numbers.**

The instance of `Numeric` that the program runs on.

Main definitions:

* `StudyAnalysis.Double.orderKey` — the word whose order is the total order of the doubles;
* `StudyAnalysis.Double.floor`, `StudyAnalysis.Double.ceil` — the whole numbers beside a double.
-/

import StudyAnalysis.Number.Gamma
import StudyAnalysis.Number.Numeric

set_option autoImplicit false
set_option relaxedAutoImplicit false

namespace StudyAnalysis

namespace Double

/-- A word that grows with the double: the bits of a negative number are all flipped, and of any
other number only the sign bit is. -/
def orderKey (x : Float) : UInt64 :=
  let bits := x.toBits
  if bits < 0x8000000000000000 then bits ^^^ 0x8000000000000000 else ~~~bits

/-- One with the sign of the double; zeros are told apart by their sign bits. -/
def signum (x : Float) : Float :=
  if x.isNaN then x else if x.toBits < 0x8000000000000000 then 1 else -1

/-- The greatest whole double that is not above the double.  From `2 ^ 53` on all doubles are whole;
below it the whole part of the size is a count, and a whole double stays as it is, a negative zero
included. -/
def floor (x : Float) : Float :=
  if x.abs < 9007199254740992 then
    let whole := Float.ofNat x.abs.toUInt64.toNat
    if whole == x.abs then x else if x < 0 then -(whole + 1) else whole
  else x

/-- The least whole double that is not below the double. -/
def ceil (x : Float) : Float :=
  -floor (-x)

end Double

instance : Numeric Float where
  ofNat := Float.ofNat
  ofInt := Float.ofInt
  emptySum := -0.0
  decLt := Float.decLt
  decLe := Float.decLe
  totalLe x y := Double.orderKey x ≤ Double.orderKey y
  abs := Float.abs
  signum := Double.signum
  sqrt := Float.sqrt
  cbrt := Float.cbrt
  pow := Float.pow
  log := Float.log
  exp := Float.exp
  logFactorial := Gamma.logFactorial
  floor := Double.floor
  ceil := Double.ceil
  toNat x := x.toUInt64.toNat
  isFinite := Float.isFinite

end StudyAnalysis
