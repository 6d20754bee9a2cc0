/-
**Continued fractions.**

The tails of the reference distributions are continued fractions
`b₀ + a₁ / (b₁ + a₂ / (b₂ + …))`.  They are evaluated from the front: the ratio of two successive
convergents is kept as a quotient of two quantities, each of which has a one-term recurrence.

Main definitions:

* `StudyAnalysis.ContinuedFraction.value` — a continued fraction to full double precision.
-/

set_option autoImplicit false
set_option relaxedAutoImplicit false

namespace StudyAnalysis.ContinuedFraction

/-- The relative accuracy at which two successive convergents count as equal, `2 ^ -53`. -/
def precision : Float := 1.1102230246251565e-16

/-- A smallest denominator that stands in for a vanishing one. -/
def tiny : Float := 2.2250738585072014e-308 / precision

/-- The quantity, or the smallest denominator if it vanishes. -/
def nonzero (x : Float) : Float :=
  if x.abs < tiny then tiny else x

/-- From the convergent `f` and the two quantities `c` and `d` before term `i`, the convergent after
at most `fuel` more terms. -/
def advance (a b : Nat → Float) : Nat → Nat → Float → Float → Float → Float
  | 0, _, _, _, f => f
  | fuel + 1, i, c, d, f =>
    let d := 1 / nonzero (b i + a i * d)
    let c := nonzero (b i + a i / c)
    let step := c * d
    let f := f * step
    if (step - 1).abs ≤ precision then f else advance a b fuel (i + 1) c d f

/-- The continued fraction `b₀ + a₁ / (b₁ + a₂ / (b₂ + …))`, from at most `terms` of its terms. -/
def value (a b : Nat → Float) (terms : Nat) : Float :=
  let first := nonzero (b 0)
  advance a b terms 1 first 0 first

end StudyAnalysis.ContinuedFraction
