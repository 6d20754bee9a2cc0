/-
**Tails of the reference distributions.**

A p-value is the probability that a reference distribution leaves beyond a statistic.  The four
upper tails are operations of their own, so that whatever is proved about the tests holds for all
functions in their place.

Main definitions:

* `StudyAnalysis.Tails` — the four upper tails;
* `StudyAnalysis.Tails.studentTwoSided`, `StudyAnalysis.Tails.normalTwoSided` — both tails of a
  symmetric distribution;
* the tails in double precision.
-/

import StudyAnalysis.Number.Beta
import StudyAnalysis.Number.Double
import StudyAnalysis.Statistics.Outcome

set_option autoImplicit false
set_option relaxedAutoImplicit false

namespace StudyAnalysis

/-- The upper tails of the reference distributions. -/
class Tails (α : Type) where
  /-- The tail of the standard normal distribution above a number that is not negative. -/
  normal : α → α
  /-- The tail of Student's distribution above a number that is not negative; the second argument
  is the number of degrees of freedom. -/
  student : α → α → α
  /-- The tail of a chi-square distribution; the second argument is the number of degrees of
  freedom. -/
  chiSquare : α → α → α
  /-- The tail of an F distribution; the second and third argument are the degrees of freedom of
  the numerator and of the denominator. -/
  fRatio : α → α → α → α

namespace Tails

variable {α : Type} [Numeric α] [Tails α]

/-- The probability of a standard normal number at least as far from zero. -/
def normalTwoSided (z : α) : α :=
  2 * normal (Numeric.abs z)

/-- The probability of a Student number at least as far from zero; the distribution exists for
positive degrees of freedom only. -/
def studentTwoSided (t df : α) : Except SampleError α :=
  if 0 < df then .ok (2 * student (Numeric.abs t) df) else .error .badParameters

end Tails

namespace Double

/-- The normal tail in double precision. -/
def normalTail (z : Float) : Float :=
  Gamma.errorComplement (z / Float.sqrt 2) / 2

/-- The Student tail in double precision; infinite degrees of freedom make it the normal one. -/
def studentTail (t df : Float) : Float :=
  if !df.isFinite then normalTail t
  else
    let half := Beta.regularized (df / 2) 0.5 (df / (df + t * t)) / 2
    if t ≤ 0 then 1 - half else half

/-- The chi-square tail in double precision. -/
def chiSquareTail (x df : Float) : Float :=
  if x ≤ 0 then 1
  else if x.isInf then 0
  else Gamma.upper (df / 2) (x / 2)

/-- The tail of the F distribution in double precision. -/
def fTail (x df1 df2 : Float) : Float :=
  if x < 0 then 1
  else if x.isInf then 0
  else
    let scaled := df1 * x
    Beta.regularized (df2 / 2) (df1 / 2) (1 - scaled / (scaled + df2))

end Double

instance : Tails Float where
  normal := Double.normalTail
  student := Double.studentTail
  chiSquare := Double.chiSquareTail
  fRatio := Double.fTail

end StudyAnalysis
