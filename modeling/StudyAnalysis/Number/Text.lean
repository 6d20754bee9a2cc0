/-
**Numbers as text.**

Reports write a number with the fewest digits that identify it or with a fixed number of places,
and never with an exponent; JSON documents write it with a point or an exponent, so that it is seen
to be a fraction.  `NumberText` names the three texts; this module gives the layouts that they share
and the texts of a double.

Main definitions:

* `StudyAnalysis.NumberText` — the texts of a number;
* `StudyAnalysis.Decimal.positional` — a decimal without an exponent;
* `StudyAnalysis.Decimal.json` — a decimal as a JSON fraction.
-/

import StudyAnalysis.Number.Decimal

set_option autoImplicit false
set_option relaxedAutoImplicit false

namespace StudyAnalysis

/-- The texts in which a number is written. -/
class NumberText (α : Type) where
  /-- The fewest digits that identify the number, without an exponent. -/
  shortest : α → String
  /-- The number rounded to a count of decimal places. -/
  fixed : Nat → α → String
  /-- The number in a JSON document. -/
  json : α → String

namespace Decimal

/-- A run of zeros. -/
def zeros (n : Nat) : String :=
  String.ofList (List.replicate n '0')

/-- The digits with a decimal point after the first `whole` of them; a point that stands before all
of them has a zero in front of it. -/
def withPoint (digits : List Char) (whole : Int) : String :=
  if whole ≤ 0 then "0." ++ zeros (-whole).toNat ++ String.ofList digits
  else String.ofList (digits.take whole.toNat) ++ "." ++ String.ofList (digits.drop whole.toNat)

/-- The decimal written out in full, with a point only if it has a fractional part. -/
def positional (d : Decimal) : String :=
  let digits := Nat.toDigits 10 d.digits
  if d.digits = 0 then "0"
  else if 0 ≤ d.exponent then String.ofList digits ++ zeros d.exponent.toNat
  else withPoint digits (digits.length + d.exponent)

/-- An exponent with its sign, which is written also in front of a positive one. -/
def signedExponent (e : Int) : String :=
  if e < 0 then toString e else "+" ++ toString e

/-- The decimal as a JSON fraction: positional from `0.00001` to sixteen whole digits, and with an
exponent outside of that range. -/
def json (d : Decimal) : String :=
  let digits := Nat.toDigits 10 d.digits
  let whole := digits.length + d.exponent
  if d.digits = 0 then "0.0"
  else if 0 ≤ d.exponent ∧ whole ≤ 16 then String.ofList digits ++ zeros d.exponent.toNat ++ ".0"
  else if -5 < whole ∧ whole ≤ 16 then withPoint digits whole
  else
    let mantissa := if digits.length = 1 then String.ofList digits else withPoint digits 1
    mantissa ++ "e" ++ signedExponent (whole - 1)

/-- `units` of `10 ^ -places` with all their places. -/
def fixedText (units places : Nat) : String :=
  let digits := Nat.toDigits 10 units
  let padded := List.replicate (places + 1 - digits.length) '0' ++ digits
  if places = 0 then String.ofList padded else withPoint padded (padded.length - places : Nat)

end Decimal

namespace Binary

/-- The text of what is not a finite double. -/
def exceptional (x : Float) : String :=
  if x.isNaN then "NaN" else if x < 0 then "-inf" else "inf"

/-- The fewest digits that identify the double; of two equally near decimals the one farther from
zero is taken. -/
def shortestText (x : Float) : String :=
  if !x.isFinite then exceptional x
  else
    let b := ofFloat x
    b.sign ++ (if b.significand = 0 then "0" else (Decimal.shortest .away b).positional)

/-- The double rounded to a number of places; a half goes to the even neighbour, and a negative zero
keeps its sign. -/
def fixedText (places : Nat) (x : Float) : String :=
  if !x.isFinite then exceptional x
  else
    let b := ofFloat x
    b.sign ++ Decimal.fixedText (Decimal.fixed .toEven b.numerator b.denominator places) places

/-- The double in a JSON document, where what is not finite is null. -/
def jsonText (x : Float) : String :=
  if !x.isFinite then "null"
  else
    let b := ofFloat x
    b.sign ++ (if b.significand = 0 then "0.0" else (Decimal.shortest .toEven b).json)

end Binary

instance : NumberText Float where
  shortest := Binary.shortestText
  fixed := Binary.fixedText
  json := Binary.jsonText

end StudyAnalysis
