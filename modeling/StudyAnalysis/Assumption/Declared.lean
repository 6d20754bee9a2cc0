/-
**What the user says about assumptions.**

A user asserts propositions for all comparisons or for the comparisons of one variable.

Main definitions:

* `StudyAnalysis.Declared` — the asserted propositions;
* `StudyAnalysis.Declared.forVariables` — what is asserted for a comparison.
-/

import StudyAnalysis.Assumption.Basic
import StudyAnalysis.Data.NameMap

set_option autoImplicit false
set_option relaxedAutoImplicit false

namespace StudyAnalysis

/-- The propositions that a user asserts. -/
structure Declared where
  /-- For all comparisons. -/
  global : AssumptionSet
  /-- For the comparisons of a variable. -/
  perVariable : NameMap AssumptionSet

namespace Declared

/-- Nothing is asserted. -/
def nothing : Declared := ⟨∅, ∅⟩

/-- What is asserted for one variable. -/
def forVariable (d : Declared) (name : String) : AssumptionSet :=
  (d.perVariable.get? name).getD ∅

/-- More propositions asserted for all comparisons. -/
def withGlobal (d : Declared) (flags : AssumptionSet) : Declared :=
  { d with global := d.global ∪ flags }

/-- More propositions asserted for one variable. -/
def withVariable (d : Declared) (name : String) (flags : AssumptionSet) : Declared :=
  { d with perVariable := d.perVariable.insert name (d.forVariable name ∪ flags) }

/-- Everything that is asserted for a comparison of the given variables. -/
def forVariables (d : Declared) (names : List String) : AssumptionSet :=
  names.foldl (fun s name => s ∪ d.forVariable name) d.global

/-- Whether nothing is asserted. -/
def isEmpty (d : Declared) : Bool :=
  d.global.isEmpty && d.perVariable.values.all AssumptionSet.isEmpty

theorem mem_foldl_union (d : Declared) (names : List String) (s : AssumptionSet)
    (a : Assumption) :
    a ∈ names.foldl (fun s name => s ∪ d.forVariable name) s ↔
      a ∈ s ∨ ∃ name ∈ names, a ∈ d.forVariable name := by
  induction names generalizing s with
  | nil => simp
  | cons name rest ih => simp [ih, or_assoc]

/-- A proposition is asserted for a comparison if it is for all or for one of its variables. -/
theorem mem_forVariables (d : Declared) (names : List String) (a : Assumption) :
    a ∈ d.forVariables names ↔ a ∈ d.global ∨ ∃ name ∈ names, a ∈ d.forVariable name :=
  mem_foldl_union d names d.global a

end Declared

end StudyAnalysis
