/-
**Ranks and ties.**

The ranks of a sample are the positions of its values in ascending order, counted from one; equal
values share the mean of their positions.  The tests on ranks correct for such ties by sums over the
groups of equal values.

Main definitions:

* `StudyAnalysis.tieRuns` — the groups of equal neighbours of a list;
* `StudyAnalysis.ranks` — the ranks of a sample, in the order of the sample;
* `StudyAnalysis.tieCorrection`, `StudyAnalysis.tieSpread` — sums over the groups of equal values.

Main results:

* `StudyAnalysis.flatten_tieRuns` — the groups in sequence are the list.
-/

import StudyAnalysis.Number.Numeric

set_option autoImplicit false
set_option relaxedAutoImplicit false

namespace StudyAnalysis

open Numeric

/-- The list cut into runs of elements whose key equals the key of the first element of the run. -/
def tieRuns {β γ : Type} [BEq γ] (key : β → γ) : List β → List (List β)
  | [] => []
  | b :: bs =>
    (b :: bs.takeWhile (key · == key b)) :: tieRuns key (bs.dropWhile (key · == key b))
termination_by bs => bs.length
decreasing_by
  have := (List.dropWhile_suffix (l := bs) (key · == key b)).length_le
  simp only [List.length_cons]
  omega

@[simp] theorem tieRuns_nil {β γ : Type} [BEq γ] (key : β → γ) : tieRuns key [] = [] := by
  simp [tieRuns]

theorem tieRuns_cons {β γ : Type} [BEq γ] (key : β → γ) (b : β) (bs : List β) :
    tieRuns key (b :: bs) =
      (b :: bs.takeWhile (key · == key b)) :: tieRuns key (bs.dropWhile (key · == key b)) := by
  rw [tieRuns]

/-- No element is lost by cutting, and the order stays. -/
theorem flatten_tieRuns {β γ : Type} [BEq γ] (key : β → γ) (bs : List β) :
    (tieRuns key bs).flatten = bs := by
  fun_induction tieRuns key bs with
  | case1 => rfl
  | case2 b bs ih => simp [ih]

variable {α : Type} [Numeric α]

/-- Every element of the runs with the mean of the positions of its run, where `start` elements
stand before the first run. -/
def shareRanks {β : Type} (start : Nat) : List (List β) → List (β × α)
  | [] => []
  | run :: runs =>
    let next := start + run.length
    run.map (fun b => (b, ofNat (start + 1 + next) / 2)) ++ shareRanks next runs

/-- The values of a sample in ascending order, each with its place in the sample. -/
def ascending (xs : List α) : List (α × Nat) :=
  xs.zipIdx.mergeSort fun p q => totalLe p.1 q.1

/-- The ranks of a sample, in the order of the sample. -/
def ranks (xs : List α) : List α :=
  let ranked : List ((α × Nat) × α) := shareRanks 0 (tieRuns (·.1) (ascending xs))
  (ranked.mergeSort fun p q => p.1.2 ≤ q.1.2).map (·.2)

/-- The sizes of the groups of equal values of a sample. -/
def tieSizes (xs : List α) : List Nat :=
  (tieRuns id (sorted xs)).map List.length

/-- The sum of `t (t² - 1)` over the sizes `t` of the groups of equal values. -/
def tieCorrection (xs : List α) : α :=
  (tieSizes xs).foldl
    (fun total size => let t : α := ofNat size; total + t * (t * t - 1)) 0

/-- The sum of `t (t - 1) (2 t + 5)` over the sizes `t` of the groups of equal values. -/
def tieSpread (xs : List α) : α :=
  (tieSizes xs).foldl
    (fun total size => let t : α := ofNat size; total + t * (t - 1) * (2 * t + 5)) 0

end StudyAnalysis
