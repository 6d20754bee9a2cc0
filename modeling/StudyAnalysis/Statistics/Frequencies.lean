/-
**Tests of contingency tables.**

A table is a list of rows of observed frequencies.

Main definitions:

* `StudyAnalysis.expectedCounts` — the frequencies that independence would lead to expect;
* `StudyAnalysis.chiSquareIndependence`, `StudyAnalysis.cramersV` — the chi-square test;
* `StudyAnalysis.fisherExact` — the exact test of a table of two rows and two columns;
* `StudyAnalysis.fisherExactChecked?` — the same test with checked products of counts.
-/

import StudyAnalysis.Number.Word
import StudyAnalysis.Statistics.Tails

set_option autoImplicit false
set_option relaxedAutoImplicit false

namespace StudyAnalysis

open Numeric

variable {α : Type} [Numeric α]

/-! ### The chi-square test -/

/-- The number of columns of a table, which its first row has. -/
def columnCount (table : List (List α)) : Nat :=
  (table.headD []).length

/-- The totals of the columns of a table. -/
def columnTotals (table : List (List α)) : List α :=
  (List.range (columnCount table)).map fun j => sum (table.map (·.getD j 0))

/-- The frequencies expected if rows and columns were independent; an empty table expects none. -/
def expectedCounts (table : List (List α)) : List (List α) :=
  let total := sum table.flatten
  if total ≤ 0 then table.map (·.map fun _ => 0)
  else table.map fun row => (columnTotals table).map fun c => sum row * c / total

/-- The distance of an observed from an expected count, less a continuity correction if one is
made. -/
def countDistance (corrected : Bool) (observed expected : α) : α :=
  let distance := Numeric.abs (observed - expected)
  if corrected then (if 0 ≤ distance - 1 / 2 then distance - 1 / 2 else 0) else distance

/-- The sum over all cells of the squared distance in units of the expected count. -/
def chiSquareStatistic (corrected : Bool) (table expected : List (List α)) : α :=
  (List.zipWith List.zip table expected).flatten.foldl
    (fun total (o, e) => total + countDistance corrected o e * countDistance corrected o e / e) 0

/-- The chi-square test of independence, with a continuity correction in tables of two rows and two
columns. -/
def chiSquareIndependence [Tails α] (table : List (List α)) :
    Except SampleError (TestOutput α) := do
  let rows := table.length
  let cols := columnCount table
  if rows < 2 ∨ cols < 2 then
    throw (.insufficientData 2 (min rows cols))
  table.forM fun row => do
    if row.length ≠ cols then
      throw (.lengthMismatch cols row.length)
  let expected := expectedCounts table
  if expected.flatten.any (· ≤ 0) then
    throw (.degenerate .emptyMargin)
  let free := (rows - 1) * (cols - 1)
  let df : α := ofNat free
  let chi2 := chiSquareStatistic (free = 1) table expected
  return .clamped chi2 (Tails.chiSquare chi2 df) (some df)

/-- The chi-square statistic of `n` observations on a scale from zero to one. -/
def cramersV (chi2 n : α) (rows cols : Nat) : α :=
  let k : α := ofNat (min rows cols - 1)
  if n ≤ 0 ∨ k ≤ 0 then 0 else sqrt (chi2 / (n * k))

/-! ### The exact test -/

/-- A table of two rows and two columns of counts. -/
structure Fourfold where
  a : Nat
  b : Nat
  c : Nat
  d : Nat
  deriving DecidableEq

namespace Fourfold

/-- The total of the first row. -/
def row1 (t : Fourfold) : Nat := t.a + t.b

/-- The total of the second row. -/
def row2 (t : Fourfold) : Nat := t.c + t.d

/-- The total of the first column. -/
def col1 (t : Fourfold) : Nat := t.a + t.c

/-- The total of the second column. -/
def col2 (t : Fourfold) : Nat := t.b + t.d

/-- The total of the table. -/
def total (t : Fourfold) : Nat := t.a + t.b + t.c + t.d

/-- The least first cell of a table with the same margins. -/
def least (t : Fourfold) : Nat := t.col1 - t.row2

/-- The greatest first cell of a table with the same margins. -/
def greatest (t : Fourfold) : Nat := min t.row1 t.col1

/-- The first cells of all tables with the same margins. -/
def firstCells (t : Fourfold) : List Nat :=
  List.range' t.least (t.greatest + 1 - t.least)

theorem mem_firstCells (t : Fourfold) (x : Nat) :
    x ∈ t.firstCells ↔ t.least ≤ x ∧ x ≤ t.greatest := by
  simp only [firstCells, List.mem_range'_1]
  omega

/-- The logarithm of the probability that a table with the same margins has the first cell `x`. -/
def logProbability (t : Fourfold) (x : Nat) : α :=
  logFactorial t.row1 + logFactorial t.row2 + logFactorial t.col1
    + logFactorial (t.total - t.col1) - logFactorial t.total - logFactorial x
    - logFactorial (t.row1 - x) - logFactorial (t.col1 - x) - logFactorial (t.row2 + x - t.col1)

/-- The probability of all tables with the same margins that are no more likely than this one, up to
rounding. -/
def tailProbability (t : Fourfold) : α :=
  let bound : α := t.logProbability t.a + 1 / 10000000
  t.firstCells.foldl
    (fun p x => let log : α := t.logProbability x; if log ≤ bound then p + exp log else p) 0

/-- The odds of the first column in the first row over those in the second row, from the products of
opposite cells as `hold` makes words of them. -/
def oddsRatioIn {m : Type → Type} [Monad m] (hold : Nat → m Nat) (t : Fourfold) : m α := do
  let crossed ← hold (t.b * t.c)
  let straight ← hold (t.a * t.d)
  return ofNat straight / ofNat crossed

/-- The odds ratio from what words keep of the two products. -/
def oddsRatio (t : Fourfold) : α :=
  Id.run (t.oddsRatioIn fun n => pure (Word.wrap n))

theorem oddsRatio_eq_wrap (t : Fourfold) :
    (t.oddsRatio : α) = ofNat (Word.wrap (t.a * t.d)) / ofNat (Word.wrap (t.b * t.c)) := rfl

end Fourfold

/-- The exact test of a table of two rows and two columns; the statistic is the odds ratio.  Counts
and their totals are taken to fit into words, but two large counts have a product that does not:
`hold` says what becomes of it. -/
def fisherExactIn {m : Type → Type} [Monad m] (hold : Nat → m Nat) (t : Fourfold) :
    m (Except SampleError (TestOutput α)) :=
  if t.total = 0 then return .error (.insufficientData 1 0)
  else do
    let odds ← t.oddsRatioIn hold
    return .ok (.clamped odds t.tailProbability none)

/-- The exact test with products of which words keep the last digits. -/
def fisherExact (t : Fourfold) : Except SampleError (TestOutput α) :=
  Id.run (fisherExactIn (fun n => pure (Word.wrap n)) t)

/-- The exact test with checked products: it stops without an answer at one that does not fit. -/
def fisherExactChecked? (t : Fourfold) : Option (Except SampleError (TestOutput α)) :=
  fisherExactIn Word.checked? t

theorem fisherExact_eq_ite (t : Fourfold) :
    (fisherExact t : Except SampleError (TestOutput α)) =
      if t.total = 0 then .error (.insufficientData 1 0)
      else .ok (.clamped t.oddsRatio t.tailProbability none) := by
  rw [fisherExact, fisherExactIn]
  split <;> rfl

end StudyAnalysis
