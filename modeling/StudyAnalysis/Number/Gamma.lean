/-
**The gamma function and the tails that come from it.**

The logarithm of the gamma function is Lanczos' approximation.  The regularised incomplete gamma
function is a power series near zero and a continued fraction elsewhere; the upper tails of the
chi-square and of the normal distribution are values of it.

Main definitions:

* `StudyAnalysis.Gamma.log` — the logarithm of the gamma function;
* `StudyAnalysis.Gamma.upper` — the regularised upper incomplete gamma function `Q(a, x)`;
* `StudyAnalysis.Gamma.errorComplement` — the complementary error function;
* `StudyAnalysis.Gamma.logFactorial` — the logarithm of a factorial.
-/

import StudyAnalysis.Number.ContinuedFraction

set_option autoImplicit false
set_option relaxedAutoImplicit false

namespace StudyAnalysis.Gamma

/-- The circle constant. -/
def pi : Float := 3.14159265358979323846

/-- The coefficients of Lanczos' series. -/
def lanczos : List Float := [
  2.48574089138753565546e-5, 1.05142378581721974210, -3.45687097222016235469,
  4.51227709466894823700, -2.98285225323576655721, 1.05639711577126713077,
  -0.195428773191645869583, 0.0170970543404441224307, -0.000571926117404305781283,
  0.00000463399473359905636708, -0.00000000271994908488607703910]

/-- The shift that belongs to the coefficients. -/
def lanczosShift : Float := 10.900511

/-- The logarithm of `2 * sqrt (e / pi)`. -/
def lanczosScale : Float := 0.6207822376352452223455184457816472122518527279025978

/-- The base of the natural logarithm. -/
def euler : Float := 2.71828182845904523536

/-- Lanczos' series, whose `k`-th coefficient is divided by the `k`-th denominator. -/
def series (denominator : Float → Float) : Float :=
  (lanczos.zipIdx.foldl
    (fun s (c, k) => if k = 0 then s + c else s + c / denominator (Float.ofNat k)) 0)

/-- The logarithm of the gamma function of a positive number. -/
def log (x : Float) : Float :=
  if x < 0.5 then
    let s := series fun k => k - x
    Float.log pi - Float.log (Float.sin (pi * x)) - Float.log s - lanczosScale
      - (0.5 - x) * Float.log ((0.5 - x + lanczosShift) / euler)
  else
    let s := series fun k => x + k - 1
    Float.log s + lanczosScale + (x - 0.5) * Float.log ((x - 0.5 + lanczosShift) / euler)

/-- The sum `1 + x / (a + 1) + x ^ 2 / ((a + 1) (a + 2)) + …` from a term on, with what is already
summed. -/
def powerSeries (x : Float) : Nat → Float → Float → Float → Float
  | 0, _, _, total => total
  | fuel + 1, a, term, total =>
    let a := a + 1
    let term := term * (x / a)
    let total := total + term
    if term / total ≤ 1e-16 then total else powerSeries x fuel a term total

/-- The logarithm of `x ^ a * exp (-x) / gamma a`. -/
def logWeight (a x : Float) : Float :=
  a * Float.log x - x - log a

/-- The least logarithm of a double. -/
def leastLog : Float := -709.78271289338399

/-- The regularised lower incomplete gamma function as a power series. -/
def lowerSeries (a x : Float) : Float :=
  Float.exp (logWeight a x) * powerSeries x 10000 a 1 1 / a

/-- The regularised upper incomplete gamma function as a continued fraction. -/
def upperFraction (a x : Float) : Float :=
  Float.exp (logWeight a x) / ContinuedFraction.value
    (fun i => let i := Float.ofNat i; i * (a - i))
    (fun i => x + 2 * Float.ofNat i + 1 - a) 10000

/-- An argument of the incomplete gamma function that is this close to zero counts as zero. -/
def negligible : Float := 1.1102230246251565e-15

/-- The regularised upper incomplete gamma function `Q(a, x)` for positive `a` and `x`. -/
def upper (a x : Float) : Float :=
  if x < 1 || x ≤ a then
    if x ≤ negligible || logWeight a x < leastLog then 1 else 1 - lowerSeries a x
  else if logWeight a x < leastLog then 0
  else upperFraction a x

/-- The complementary error function of a number that is not negative. -/
def errorComplement (z : Float) : Float :=
  let x := z * z
  if x < 1.5 then 1 - 2 * z / Float.sqrt pi * Float.exp (-x) * powerSeries x 10000 0.5 1 1
  else if 28 < z then 0
  else
    let fraction := ContinuedFraction.value
      (fun i => let i := Float.ofNat i; i * (0.5 - i))
      (fun i => x + 2 * Float.ofNat i + 0.5) 10000
    z * Float.exp (-x) / Float.sqrt pi / fraction

/-- The logarithm of `n!`. -/
def logFactorial (n : Nat) : Float :=
  if n ≤ 170 then
    Float.log ((List.range n).foldl (fun product k => product * Float.ofNat (k + 1)) 1)
  else log (Float.ofNat n + 1)

end StudyAnalysis.Gamma
