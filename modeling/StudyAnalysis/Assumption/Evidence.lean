/-
**What the data say about assumptions.**

For every proposition the data either support it, contradict it, or leave it open.

Main definitions:

* `StudyAnalysis.Evidence` — the supported and the contradicted propositions;
* `StudyAnalysis.Evidence.record` — a verdict on some propositions, which replaces earlier ones;
* `StudyAnalysis.Evidence.ofRecords` — the evidence of a list of verdicts;
* `StudyAnalysis.Evidence.verdict` — the verdict on a set of propositions.

Main results:

* `StudyAnalysis.Evidence.consistent_ofRecords` — no list of verdicts makes a proposition both
  supported and contradicted.
-/

import StudyAnalysis.Assumption.Basic

set_option autoImplicit false
set_option relaxedAutoImplicit false

namespace StudyAnalysis

/-- The propositions that data support and those that they contradict. -/
structure Evidence where
  holds : AssumptionSet
  violated : AssumptionSet

namespace Evidence

/-- Every proposition is left open. -/
def unmeasured : Evidence := ⟨∅, ∅⟩

/-- The evidence with a verdict on the given propositions in place of what was known of them. -/
def record (e : Evidence) (flags : AssumptionSet) (verdict : Option Bool) : Evidence :=
  let holds := e.holds \ flags
  let violated := e.violated \ flags
  match verdict with
  | some true => ⟨holds ∪ flags, violated⟩
  | some false => ⟨holds, violated ∪ flags⟩
  | none => ⟨holds, violated⟩

/-- The evidence of a list of verdicts, of which later ones replace earlier ones. -/
def ofRecords (records : List (AssumptionSet × Option Bool)) : Evidence :=
  records.foldl (fun e r => e.record r.1 r.2) unmeasured

/-- The propositions that are left open. -/
def unknown (e : Evidence) : AssumptionSet :=
  (AssumptionSet.univ \ e.holds) \ e.violated

/-- The verdict on a set of propositions: true if all of them are supported, false if one of them is
contradicted, and open otherwise. -/
def verdict (e : Evidence) (flags : AssumptionSet) : Option Bool :=
  if flags ⊆ e.holds then some true
  else if (e.violated ∩ flags).isEmpty then none
  else some false

/-! ### Consistency -/

/-- No proposition is both supported and contradicted. -/
def Consistent (e : Evidence) : Prop :=
  ∀ a, a ∈ e.holds → ¬a ∈ e.violated

theorem consistent_unmeasured : unmeasured.Consistent := by
  intro a ha
  exact absurd ha (AssumptionSet.not_mem_empty a)

/-- A verdict keeps evidence consistent: it takes its propositions out of both sets before it puts
them into one. -/
theorem Consistent.record {e : Evidence} (h : e.Consistent) (flags : AssumptionSet)
    (verdict : Option Bool) : (e.record flags verdict).Consistent := by
  intro a hholds hviolated
  match verdict with
  | none =>
      simp only [Evidence.record, AssumptionSet.mem_sdiff] at hholds hviolated
      exact h a hholds.1 hviolated.1
  | some true =>
      simp only [Evidence.record, AssumptionSet.mem_sdiff, AssumptionSet.mem_union]
        at hholds hviolated
      rcases hholds with hholds | hflag
      · exact h a hholds.1 hviolated.1
      · exact hviolated.2 hflag
  | some false =>
      simp only [Evidence.record, AssumptionSet.mem_sdiff, AssumptionSet.mem_union]
        at hholds hviolated
      rcases hviolated with hviolated | hflag
      · exact h a hholds.1 hviolated.1
      · exact hholds.2 hflag

/-- **Evidence is consistent**, whatever verdicts it was made from. -/
theorem consistent_ofRecords (records : List (AssumptionSet × Option Bool)) :
    (ofRecords records).Consistent := by
  -- the invariant holds of any consistent start, which the induction has to vary
  suffices h : ∀ e : Evidence, e.Consistent →
      (records.foldl (fun e r => e.record r.1 r.2) e).Consistent from
    h unmeasured consistent_unmeasured
  induction records with
  | nil => exact fun e he => he
  | cons r rest ih => exact fun e he => ih _ (he.record r.1 r.2)

end Evidence

end StudyAnalysis
