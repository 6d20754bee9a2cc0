/-
**Filters of integer columns.**

A column of an interval or ratio variable may hold integers, and a filter may compare them with an
integer.  Both are compared through their doubles.  Rounding keeps the order of the integers, so a
filter can only go wrong at an integer that is not the literal and has the same double: it takes the
two for equal.  No integer shares the double of a literal of size below `2 ^ 53`.

Main definitions:

* `StudyAnalysis.Column.OfIntegers` — a column of an interval or ratio variable with integer cells;
* `StudyAnalysis.Double.roundedOrder` — how an integer compares with another one through doubles;
* `StudyAnalysis.Column.integersThat` — the cells whose integers stand in a relation to a literal.

Main results:

* `StudyAnalysis.evaluate_filter_int` — what a filter of an integer column by an integer keeps;
* `StudyAnalysis.evaluate_filter_int_exact_iff` — **when integers are compared as integers**.
-/

import Mathlib
import StudyAnalysis.Proofs.Hypothesis.FilterLaws
import StudyAnalysis.Proofs.Number.Integers

set_option autoImplicit false
set_option relaxedAutoImplicit false

namespace StudyAnalysis

open Fallible

/-! ### Integer columns -/

/-- A column of an interval or ratio variable whose cells are integers. -/
structure Column.OfIntegers {α : Type} (c : Column α) : Prop where
  continuous : c.var.scale.isContinuous = true
  isInt : ∀ cell ∈ c.cells, ∃ i, cell = .int i

/-- Whether a cell holds an integer that stands in a relation to a literal, by how integers compare
with the literal. -/
def Cell.intHolds {α : Type} (order : ℤ → Ordering) (comparison : Comparison) : Cell α → Bool
  | .int i => comparison.holds (order i)
  | .real _ | .text _ => false

/-- The cells of the first rows of a column whose integers stand in a relation to a literal, by how
integers compare with the literal. -/
def Column.integersThat {α : Type} (c : Column α) (rowCount : ℕ) (order : ℤ → Ordering)
    (comparison : Comparison) : Series α :=
  (c.entriesAt (List.range rowCount)).filter fun e => e.2.intHolds order comparison

/-- How an integer compares with `k` through their doubles. -/
def Double.roundedOrder (k i : ℤ) : Ordering :=
  if Float.ofInt i == Float.ofInt k then .eq else compare i k

/-! ### Comparing cells -/

variable {c : Column Float} {v : Variable} {k : ℤ}

/-- Equality and inequality only ask whether two values compare as equal. -/
theorem Comparison.holds_of_not_isOrdered {comparison : Comparison}
    (h : ¬ comparison.isOrdered = true) (o : Ordering) :
    comparison.holds o = ((o == .eq) == (comparison == .eq)) := by
  cases comparison <;> cases o <;> first | rfl | exact absurd rfl h

theorem Cell.agrees_int (k i : ℤ) :
    (.int i : Cell Float).agrees (.int k) = (Double.roundedOrder k i == .eq) := by
  change (Float.ofInt i == Float.ofInt k) = _
  rw [Double.roundedOrder]
  split
  · rename_i hshared
    rw [hshared]
    rfl
  · rename_i hshared
    have hne : i ≠ k := by
      rintro rfl
      exact hshared (OrderFaithful.beq_iff.2 (Double.order?_self (Double.ne_notANumber_ofInt i)))
    rw [Bool.eq_false_iff.2 hshared, eq_comm, beq_eq_false_iff_ne]
    exact fun h => hne (compare_eq_iff_eq.1 h)

namespace Variable

theorem checkLiteral_int (hv : v.scale.isContinuous = true) (comparison : Comparison) (k : ℤ) :
    v.checkLiteral comparison (.int k : Cell Float) = .ok () := by
  rw [checkLiteral, comparandKey.eq_def, checkComparand.eq_def]
  cases hscale : v.scale with
  | nominal | ordinal =>
      rw [hscale] at hv
      cases hv
  | interval | ratio => exact ite_self _

/-- **Integers are compared through their doubles**, for equality and for order alike. -/
theorem compare_int (hv : v.scale.isContinuous = true) (comparison : Comparison) (k i : ℤ) :
    v.compare (.int i : Cell Float) comparison (.int k) =
      .ok (comparison.holds (Double.roundedOrder k i)) := by
  rw [Variable.compare]
  by_cases hordered : comparison.isOrdered = true
  · have hkeys : v.orderKey (.int i : Cell Float) = some (Float.ofInt i) ∧
        v.comparandKey comparison (.int k : Cell Float) = .ok (Float.ofInt k) := by
      rw [orderKey.eq_def, comparandKey.eq_def]
      cases hscale : v.scale with
      | nominal | ordinal =>
          rw [hscale] at hv
          cases hv
      | interval | ratio => exact ⟨rfl, rfl⟩
    rw [if_pos hordered, hkeys.2, ok_bind, hkeys.1, Option.bind_some, Double.order?_ofInt]
    rfl
  · rw [if_neg hordered, Cell.agrees_int, Comparison.holds_of_not_isOrdered hordered]

theorem admits_int (hv : v.scale.isContinuous = true) (comparison : Comparison) (k i : ℤ) :
    v.admits comparison (.int k) (.int i : Cell Float) =
      comparison.holds (Double.roundedOrder k i) :=
  accepts_of_eq_ok (compare_int hv comparison k i)

end Variable

/-! ### Filters -/

variable {d : Dataset Float} {ctx : Context Float} {name : String}

/-- **What a filter of an integer column by an integer keeps**: the cells whose integers stand in the
relation by the order of their doubles. -/
theorem evaluate_filter_int (hc : d.columns.get? name = some c) (hints : c.OfIntegers)
    (comparison : Comparison) (k : ℤ) :
    evaluate d ctx (.filter comparison (.column name) (.literal (.int k))) =
      .ok (.data ⟨c.integersThat d.rowCount (Double.roundedOrder k) comparison, some c.var⟩) := by
  have hcheck : c.var.checkChain [(comparison, (.int k : Cell Float))] = .ok () := by
    rw [Variable.checkChain_eq_ok_iff, List.forall_mem_singleton]
    exact Variable.checkLiteral_int hints.continuous comparison k
  refine (evaluate_chain hc [(comparison, .int k)]).trans ?_
  rw [hcheck, Column.integersThat]
  refine congrArg (fun entries => Except.ok (Evaluated.data ⟨entries, some c.var⟩))
    (List.filter_congr fun e he => ?_)
  obtain ⟨i, hi⟩ := hints.isInt e.2 (List.mem_of_getElem? (Column.mem_entriesAt.1 he).2)
  rw [Variable.admitsAll, List.all_cons, List.all_nil, Bool.and_true, hi]
  exact Variable.admits_int hints.continuous comparison k i

/-- The cells that stand in the relations by the order of the doubles are those that do by the order
of the integers exactly if no other integer of the column has the double of the literal. -/
theorem Column.integersThat_rounded_iff (rowCount : ℕ) :
    (∀ comparison, c.integersThat rowCount (Double.roundedOrder k) comparison =
      c.integersThat rowCount (compare · k) comparison) ↔
      ∀ row i, (row, .int i) ∈ c.entriesAt (List.range rowCount) →
        (Float.ofInt i == Float.ofInt k) = true → i = k := by
  constructor
  · -- a filter for equality already tells an integer from another one with the same double
    intro h row i hmem hshared
    have hkept : (row, .int i) ∈ c.integersThat rowCount (compare · k) .eq := by
      rw [← h .eq]
      refine List.mem_filter.2 ⟨hmem, ?_⟩
      rw [Cell.intHolds, Double.roundedOrder, if_pos hshared]
      rfl
    have heq : (compare i k == .eq) = true := (List.mem_filter.1 hkept).2
    exact compare_eq_iff_eq.1 (eq_of_beq heq)
  · intro h comparison
    refine List.filter_congr fun e he => ?_
    obtain ⟨row, cell⟩ := e
    cases cell with
    | real x | text s => rfl
    | int i =>
        rw [Cell.intHolds, Cell.intHolds, Double.roundedOrder]
        split
        · rename_i hshared
          rw [h row i he hshared, compare_eq_iff_eq.2 rfl]
        · rfl

/-- **When integers are compared as integers.**  A filter of an integer column by an integer always
has an answer, the cells that stand in the relation by the order of the doubles.  The six filters
by `k` keep exactly the cells whose integers stand in the relations to `k` if and only if no other
integer of the column has the double of `k`, and so they do whenever the size of `k` is below
`2 ^ 53`. -/
theorem evaluate_filter_int_exact_iff (hc : d.columns.get? name = some c) (hints : c.OfIntegers)
    (k : ℤ) :
    (∀ comparison, evaluate d ctx (.filter comparison (.column name) (.literal (.int k))) =
      .ok (.data ⟨c.integersThat d.rowCount (Double.roundedOrder k) comparison, some c.var⟩)) ∧
    ((∀ comparison, evaluate d ctx (.filter comparison (.column name) (.literal (.int k))) =
      .ok (.data ⟨c.integersThat d.rowCount (compare · k) comparison, some c.var⟩)) ↔
        ∀ row i, (row, .int i) ∈ c.entriesAt (List.range d.rowCount) →
          (Float.ofInt i == Float.ofInt k) = true → i = k) ∧
    (k.natAbs < 2 ^ 53 → ∀ comparison,
      evaluate d ctx (.filter comparison (.column name) (.literal (.int k))) =
        .ok (.data ⟨c.integersThat d.rowCount (compare · k) comparison, some c.var⟩)) := by
  have hexact : (∀ comparison,
      evaluate d ctx (.filter comparison (.column name) (.literal (.int k))) =
        .ok (.data ⟨c.integersThat d.rowCount (compare · k) comparison, some c.var⟩)) ↔
        ∀ row i, (row, .int i) ∈ c.entriesAt (List.range d.rowCount) →
          (Float.ofInt i == Float.ofInt k) = true → i = k := by
    rw [← Column.integersThat_rounded_iff]
    refine forall_congr' fun comparison => ?_
    rw [evaluate_filter_int hc hints]
    simp only [Except.ok.injEq, Evaluated.data.injEq, Binding.mk.injEq, and_true]
  exact ⟨fun comparison => evaluate_filter_int hc hints comparison k, hexact,
    fun hk => hexact.2 fun row i _ hshared => (Double.ofInt_beq_ofInt_iff hk).1 hshared⟩

/-- Long record numbers, of which the middle one is no double. -/
def recordNumbers : Column Float :=
  ⟨⟨"record", .ratio, none⟩,
    [.int 9007199254740991, .int 9007199254740993, .int 9007199254740992]⟩

/-- A table of long record numbers. -/
def records : Dataset Float :=
  ⟨.ofList [("record", recordNumbers)], 3, none⟩

/-- Filters by the greatest record number whose double is its own are exact; those by the next one
are not. -/
theorem evaluate_records_int :
    let ctx : Context Float := ⟨.standard, none, ⟨∅, ∅⟩⟩
    let exact (k : ℤ) := ∀ comparison,
      evaluate records ctx (.filter comparison (.column "record") (.literal (.int k))) =
        .ok (.data ⟨recordNumbers.integersThat 3 (compare · k) comparison, some recordNumbers.var⟩)
    exact 9007199254740991 ∧ ¬ exact 9007199254740992 := by
  intro ctx exact
  have hints : recordNumbers.OfIntegers := ⟨rfl, by simp [recordNumbers]⟩
  have hfilters := @evaluate_filter_int_exact_iff recordNumbers records ctx "record" rfl hints
  constructor
  · exact (hfilters 9007199254740991).2.2 (by decide)
  · intro h
    have hmem : (1, Cell.int 9007199254740993) ∈
        recordNumbers.entriesAt (List.range records.rowCount) := by
      simp [recordNumbers, records, Column.entriesAt]
    have hsame := (hfilters 9007199254740992).2.1.1 h 1 9007199254740993 hmem (by decide +kernel)
    exact absurd hsame (by decide)

/-- A filter for equality keeps a record number that is not the literal, and one for what is greater
loses it. -/
theorem evaluate_records_shared :
    let ctx : Context Float := ⟨.standard, none, ⟨∅, ∅⟩⟩
    let k : ℤ := 9007199254740992
    let filter (comparison : Comparison) : Expression Float :=
      .filter comparison (.column "record") (.literal (.int k))
    Dataset.ofColumns [recordNumbers] = .ok records ∧
      evaluate records ctx (filter .eq) =
        .ok (.data ⟨[(1, .int (k + 1)), (2, .int k)], some recordNumbers.var⟩) ∧
      recordNumbers.integersThat 3 (compare · k) .eq = [(2, .int k)] ∧
      evaluate records ctx (filter .gt) = .ok (.data ⟨[], some recordNumbers.var⟩) ∧
      recordNumbers.integersThat 3 (compare · k) .gt = [(1, .int (k + 1))] :=
  ⟨rfl, rfl, rfl, rfl, rfl⟩

end StudyAnalysis
