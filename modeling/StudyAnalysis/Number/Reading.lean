/-
**Reading decimal numbers.**

Main definitions:

* `StudyAnalysis.Reading.natInBase?` — the count that digits in a base stand for;
* `StudyAnalysis.Reading.nearest` — the double nearest to a decimal;
* `StudyAnalysis.Reading.float?` — the double that a word stands for;
* `StudyAnalysis.Reading.word64?` — the count of at most 64 bits that a word stands for.
-/

import StudyAnalysis.Number.Word

set_option autoImplicit false
set_option relaxedAutoImplicit false

namespace StudyAnalysis.Reading

/-- The count that a list of decimal digits stands for. -/
def natOfDigits (digits : List Char) : Nat :=
  digits.foldl (fun n c => 10 * n + (c.toNat - '0'.toNat)) 0

/-- The value of a digit, up to the sixteen hexadecimal ones. -/
def digit? (c : Char) : Option Nat :=
  if c.isDigit then some (c.toNat - '0'.toNat)
  else if 'a' ≤ c ∧ c ≤ 'f' then some (c.toNat - 'a'.toNat + 10)
  else if 'A' ≤ c ∧ c ≤ 'F' then some (c.toNat - 'A'.toNat + 10)
  else none

/-- Whether a character is a digit in a base up to sixteen. -/
def isDigitIn (base : Nat) (c : Char) : Bool :=
  (digit? c).any (· < base)

/-- The count that a list of digits stands for in a base; `none` if one is not a digit in it. -/
def natInBase? (base : Nat) (digits : List Char) : Option Nat :=
  digits.foldlM (fun n c => ((digit? c).filter (· < base)).map (base * n + ·)) 0

/-- Whether the text is not empty and consists of decimal digits. -/
def isDigits (cs : List Char) : Bool :=
  !cs.isEmpty && cs.all Char.isDigit

/-- The double nearest to `digits * 10 ^ exponent`.  A decimal far outside of the range of the
doubles is not computed. -/
def nearest (digits : Nat) (exponent : Int) : Float :=
  let lead := (Nat.toDigits 10 digits).length + exponent
  if digits = 0 || lead < -400 then 0
  else if 400 < lead then 1.0 / 0.0
  else Float.ofScientific digits (exponent < 0) exponent.natAbs

/-- The sign in front of a text, and the rest of the text. -/
def splitSign : List Char → Bool × List Char
  | '-' :: rest => (true, rest)
  | '+' :: rest => (false, rest)
  | cs => (false, cs)

/-- The whole number that a signed run of digits stands for. -/
def exponent? (cs : List Char) : Option Int :=
  let (negative, digits) := splitSign cs
  if isDigits digits then
    let n : Int := natOfDigits digits
    some (if negative then -n else n)
  else none

/-- The double that an unsigned decimal stands for: digits with at most one point and at least one
digit, and then an exponent. -/
def unsigned? (cs : List Char) : Option Float :=
  let (mantissa, tail) := cs.span fun c => c != 'e' && c != 'E'
  let (whole, rest) := mantissa.span (· != '.')
  let fraction := rest.drop 1
  let digits := whole ++ fraction
  let exponent := match tail with
    | [] => some 0
    | _ :: e => exponent? e
  if isDigits digits then
    exponent.map fun e => nearest (natOfDigits digits) (e - fraction.length)
  else none

/-- The double that a word stands for: a decimal, `inf`, `infinity` or `nan` in any case, with or
without a sign. -/
def float? (s : String) : Option Float :=
  let (negative, cs) := splitSign s.toList
  let word := String.ofList (cs.map Char.toLower)
  let magnitude :=
    if word = "inf" || word = "infinity" then some (1.0 / 0.0)
    else if word = "nan" then some (0.0 / 0.0)
    else unsigned? cs
  magnitude.map fun x => if negative then -x else x

/-- The count of at most 64 bits that a word stands for; a plus sign may stand before it. -/
def word64? (s : String) : Option Nat :=
  let digits := match s.toList with
    | '+' :: rest => rest
    | cs => cs
  let n := natOfDigits digits
  if isDigits digits && Word.fits n then some n else none

end StudyAnalysis.Reading
