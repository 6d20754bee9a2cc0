/-
**The incomplete beta function.**

The tails of Student's t and of the F distribution are values of the regularised incomplete beta
function.  It is a continued fraction that converges fast below its mean; above, the symmetry
`I_x(a, b) = 1 - I_(1-x)(b, a)` is used.

Main definitions:

* `StudyAnalysis.Beta.regularized` — the function `I_x(a, b)`.
-/

import StudyAnalysis.Number.Gamma

set_option autoImplicit false
set_option relaxedAutoImplicit false

namespace StudyAnalysis.Beta

/-- The distance to zero and to one at which an argument counts as that end. -/
def endpoint : Float := 2.220446049250313e-16

/-- `x ^ a * (1 - x) ^ b / B(a, b)`; it vanishes at both ends. -/
def weight (a b x : Float) : Float :=
  if x ≤ endpoint || 1 - x ≤ 2 * endpoint then 0
  else Float.exp (Gamma.log (a + b) - Gamma.log a - Gamma.log b
    + a * Float.log x + b * Float.log (1 - x))

/-- The `i`-th numerator of the continued fraction of the incomplete beta function. -/
def numerator (a b x : Float) (i : Nat) : Float :=
  let m := Float.ofNat (i / 2)
  if i % 2 = 0 then m * (b - m) * x / ((a + 2 * m - 1) * (a + 2 * m))
  else -(a + m) * (a + b + m) * x / ((a + 2 * m) * (a + 2 * m + 1))

/-- The continued fraction of the incomplete beta function, from at most 281 terms. -/
def fraction (a b x : Float) : Float :=
  1 / ContinuedFraction.value (numerator a b x) (fun _ => 1) 281

/-- The regularised incomplete beta function `I_x(a, b)`. -/
def regularized (a b x : Float) : Float :=
  let scale := weight a b x
  if (a + 1) / (a + b + 2) ≤ x then 1 - scale * fraction b a (1 - x) / b
  else scale * fraction a b x / a

end StudyAnalysis.Beta
