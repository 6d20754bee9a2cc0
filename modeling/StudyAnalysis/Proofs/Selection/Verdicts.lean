/-
**Verdicts in three values.**

A verdict is true, false or unknown.  Evidence is a map from the assumptions to verdicts, into which
verdicts are written for several assumptions at once: whatever was written last counts.  The verdict
on several assumptions is the strong Kleene conjunction of the verdicts on each of them.  Evidence
looks for a contradicted assumption only after it has asked whether all of them are supported, and
this is right because no assumption is both.  The checks of several samples are combined in the same
way by a search that ends with the first check that fails.

Main definitions:

* `StudyAnalysis.Verdict.conjunction` — the strong Kleene conjunction of some verdicts;
* `StudyAnalysis.Verdict.search` — a search for a verdict that is false;
* `StudyAnalysis.Evidence.lastVerdict` — the verdict that was recorded last about an assumption.

Main results:

* `StudyAnalysis.Verdict.search_eq` — what the search has seen and what is left, in conjunction;
* `StudyAnalysis.Evidence.verdict_singleton_ofRecords` — **the last verdict counts**;
* `StudyAnalysis.Evidence.verdict_eq_conjunction` — the verdict on several assumptions;
* `StudyAnalysis.evidence_keeps_last_verdicts` — **evidence as a map, and its conjunctions**.
-/

import Mathlib
import StudyAnalysis.Proofs.Selection.Monotonicity

set_option autoImplicit false
set_option relaxedAutoImplicit false

namespace StudyAnalysis

/-! ### Conjunctions -/

namespace Verdict

variable {v w : Option Bool} {vs ws : List (Option Bool)}

/-- The strong Kleene conjunction of two verdicts: false if one of them is, true if both are, and
unknown otherwise. -/
def and : Option Bool → Option Bool → Option Bool
  | some false, _ | _, some false => some false
  | some true, some true => some true
  | _, _ => none

/-- The strong Kleene conjunction of some verdicts; that of none is true. -/
def conjunction (vs : List (Option Bool)) : Option Bool :=
  vs.foldr and (some true)

theorem ext_iff : v = w ↔ (v = some true ↔ w = some true) ∧ (v = some false ↔ w = some false) := by
  revert v w
  decide

theorem and_left_comm (u v w : Option Bool) : and u (and v w) = and v (and u w) := by
  revert u v w
  decide

theorem and_eq_some_true_iff : and v w = some true ↔ v = some true ∧ w = some true := by
  revert v w
  decide

theorem and_eq_some_false_iff : and v w = some false ↔ v = some false ∨ w = some false := by
  revert v w
  decide

theorem conjunction_cons : conjunction (v :: vs) = and v (conjunction vs) := rfl

/-- **A conjunction holds exactly if all of its parts do.** -/
theorem conjunction_eq_some_true_iff : conjunction vs = some true ↔ ∀ v ∈ vs, v = some true := by
  induction vs with
  | nil => exact iff_of_true rfl (List.forall_mem_nil _)
  | cons v vs ih => rw [conjunction_cons, and_eq_some_true_iff, ih, List.forall_mem_cons]

/-- **A conjunction fails exactly if one of its parts does.** -/
theorem conjunction_eq_some_false_iff : conjunction vs = some false ↔ some false ∈ vs := by
  induction vs with
  | nil => exact iff_of_false (by decide) List.not_mem_nil
  | cons v vs ih => rw [conjunction_cons, and_eq_some_false_iff, ih, List.mem_cons, eq_comm]

/-- The order of the parts does not matter. -/
theorem conjunction_eq_of_perm (h : vs.Perm ws) : conjunction vs = conjunction ws :=
  h.foldr_eq' (fun v _ w _ u => and_left_comm w v u) _

/-- The verdict that a search through some verdicts ends with, depending on whether all verdicts
that it has seen are known: the first one that is false ends it. -/
def search (known : Bool) : List (Option Bool) → Option Bool
  | [] => if known then some true else none
  | some false :: _ => some false
  | some true :: rest => search known rest
  | none :: rest => search false rest

/-- **A search answers the conjunction** of what it has seen with what is left. -/
theorem search_eq (known : Bool) :
    search known vs = and (if known then some true else none) (conjunction vs) := by
  induction vs generalizing known with
  | nil => cases known <;> rfl
  | cons v vs ih =>
      rw [conjunction_cons]
      match v with
      | some false => cases known <;> rfl
      | some true =>
          rw [search, ih]
          generalize conjunction vs = rest
          revert known rest
          decide
      | none =>
          rw [search, ih]
          generalize conjunction vs = rest
          revert known rest
          decide

end Verdict

open Verdict

/-- **Verdicts on several checks are in conjunction**, if there are any. -/
theorem allVerdicts_eq_conjunction {vs : List (Option Bool)} (hne : vs ≠ []) :
    allVerdicts vs = conjunction vs := by
  rw [Verdict.ext_iff, allVerdicts_eq_some_true_iff, conjunction_eq_some_true_iff,
    allVerdicts_eq_some_false_iff, conjunction_eq_some_false_iff]
  exact ⟨and_iff_right hne, Iff.rfl⟩

/-! ### The verdicts of evidence -/

namespace Evidence

variable {e : Evidence} {flags : AssumptionSet} {a : Assumption}
  {records : List (AssumptionSet × Option Bool)}

theorem mem_unknown : a ∈ e.unknown ↔ ¬ a ∈ e.holds ∧ ¬ a ∈ e.violated := by
  simp [unknown]

theorem verdict_eq_some_true_iff : e.verdict flags = some true ↔ ∀ a ∈ flags, a ∈ e.holds := by
  rw [verdict]
  split
  · exact iff_of_true rfl ‹_›
  · refine iff_of_false ?_ ‹_›
    split <;> decide

/-- In consistent evidence a set of assumptions fails exactly if one of them is contradicted. -/
theorem verdict_eq_some_false_iff (he : e.Consistent) :
    e.verdict flags = some false ↔ ∃ a ∈ flags, a ∈ e.violated := by
  have hnone : (e.violated ∩ flags).isEmpty = true ↔ ¬ ∃ a ∈ flags, a ∈ e.violated := by
    simp [AssumptionSet.isEmpty, List.isEmpty_iff, List.eq_nil_iff_forall_not_mem,
      AssumptionSet.mem_members, imp.swap]
  rw [verdict]
  split
  · rename_i hholds
    refine iff_of_false (by decide) ?_
    rintro ⟨a, ha, hviolated⟩
    exact he a (hholds a ha) hviolated
  · split
    · exact iff_of_false (by decide) (hnone.1 ‹_›)
    · exact iff_of_true rfl (not_not.1 fun h => ‹¬ _› (hnone.2 h))

/-- **The verdict on several assumptions is the conjunction of the verdicts on each of them**, in
whatever order they are listed. -/
theorem verdict_eq_conjunction (he : e.Consistent) {as : List Assumption}
    (has : ∀ a, a ∈ as ↔ a ∈ flags) :
    e.verdict flags = conjunction (as.map fun a => e.verdict {a}) := by
  have hviolated (a : Assumption) : some false = e.verdict {a} ↔ a ∈ e.violated := by
    rw [eq_comm, verdict_eq_some_false_iff he]
    simp
  have hholds (a : Assumption) : e.verdict {a} = some true ↔ a ∈ e.holds := by
    rw [verdict_eq_some_true_iff]
    simp
  rw [Verdict.ext_iff, verdict_eq_some_true_iff, conjunction_eq_some_true_iff,
    verdict_eq_some_false_iff he, conjunction_eq_some_false_iff]
  constructor
  · simp [hholds, has]
  · simp [eq_comm (b := some false), hviolated, has]

/-- Every assumption is in one place: supported, contradicted, or left open. -/
theorem members_perm_all (he : e.Consistent) :
    (e.holds.members ++ e.violated.members ++ e.unknown.members).Perm Assumption.all := by
  have hnodup (s : AssumptionSet) : s.members.Nodup := Assumption.nodup_all.filter _
  refine (List.perm_ext_iff_of_nodup ?_ Assumption.nodup_all).2 fun a => ?_
  · refine List.nodup_append'.2 ⟨List.nodup_append'.2 ⟨hnodup _, hnodup _, ?_⟩, hnodup _, ?_⟩
    · intro a hholds hviolated
      rw [AssumptionSet.mem_members] at hholds hviolated
      exact he a hholds hviolated
    · intro a hknown hunknown
      rw [List.mem_append, AssumptionSet.mem_members, AssumptionSet.mem_members] at hknown
      rw [AssumptionSet.mem_members, mem_unknown] at hunknown
      exact hknown.elim hunknown.1 hunknown.2
  · refine iff_of_true ?_ (Assumption.mem_all a)
    simp only [List.mem_append, AssumptionSet.mem_members, mem_unknown]
    tauto

/-! ### The last verdict -/

/-- The verdict that was recorded last about an assumption; unknown if none was. -/
def lastVerdict (records : List (AssumptionSet × Option Bool)) (a : Assumption) : Option Bool :=
  (records.reverse.find? fun r => decide (a ∈ r.1)).bind (·.2)

theorem lastVerdict_append_singleton (r : AssumptionSet × Option Bool) :
    lastVerdict (records ++ [r]) a = if a ∈ r.1 then r.2 else lastVerdict records a := by
  rw [lastVerdict, List.reverse_append, List.reverse_singleton, List.singleton_append,
    List.find?_cons]
  by_cases h : a ∈ r.1 <;> simp [h, lastVerdict]

theorem ofRecords_append_singleton (r : AssumptionSet × Option Bool) :
    ofRecords (records ++ [r]) = (ofRecords records).record r.1 r.2 :=
  List.foldl_concat _ _ _ _

/-- Evidence holds what was last said to hold, and contradicts what was last said not to. -/
theorem mem_ofRecords_iff :
    (a ∈ (ofRecords records).holds ↔ lastVerdict records a = some true) ∧
      (a ∈ (ofRecords records).violated ↔ lastVerdict records a = some false) := by
  induction records using List.reverseRecOn with
  | nil => simp [ofRecords, unmeasured, lastVerdict]
  | append_singleton records r ih =>
      rw [ofRecords_append_singleton, lastVerdict_append_singleton, mem_holds_record,
        mem_violated_record]
      by_cases h : a ∈ r.1
      · simp [h]
      · simpa [h] using ih

/-- **The last verdict counts.** -/
theorem verdict_singleton_ofRecords (records : List (AssumptionSet × Option Bool))
    (a : Assumption) : (ofRecords records).verdict {a} = lastVerdict records a := by
  rw [Verdict.ext_iff, verdict_eq_some_true_iff,
    verdict_eq_some_false_iff (consistent_ofRecords records), ← mem_ofRecords_iff.1,
    ← mem_ofRecords_iff.2]
  simp

end Evidence

open Evidence

/-! ### Evidence as a map -/

/-- **The last verdict about an assumption counts, and several verdicts are in conjunction.**
Whatever verdicts are recorded about whatever sets of assumptions, no assumption is both supported
and contradicted, and the supported, the contradicted and the open ones are all assumptions, each
once.  The verdict on one assumption is the last one that was recorded about it, and unknown if
there is none.  The verdict on several assumptions is the strong Kleene conjunction of the verdicts
on each of them, in whatever order they are listed.  So is the verdict of some checks, in any order,
and a search that ends with the first check that fails finds it. -/
theorem evidence_keeps_last_verdicts {α : Type} [Numeric α]
    (records : List (AssumptionSet × Option Bool)) :
    let e := ofRecords records
    e.Consistent ∧
      (e.holds.members ++ e.violated.members ++ e.unknown.members).Perm Assumption.all ∧
      (∀ a, e.verdict {a} = lastVerdict records a) ∧
      (∀ (flags : AssumptionSet) (as : List Assumption), (∀ a, a ∈ as ↔ a ∈ flags) →
        e.verdict flags = conjunction (as.map fun a => e.verdict {a})) ∧
      ∀ (alpha : α) (tests tests' : List (Option (TestOutput α))), tests ≠ [] →
        tests'.Perm tests →
          allKept alpha tests' = conjunction (tests.map (nullKept alpha)) ∧
          allKept alpha tests' = search true (tests.map (nullKept alpha)) := by
  intro e
  have he : e.Consistent := consistent_ofRecords records
  refine ⟨he, members_perm_all he, verdict_singleton_ofRecords records,
    fun flags as has => verdict_eq_conjunction he has, ?_⟩
  intro alpha tests tests' hne hperm
  have hkept : allKept alpha tests' = conjunction (tests.map (nullKept alpha)) := by
    have hne' : tests'.map (nullKept alpha) ≠ [] := by
      rwa [Ne, List.map_eq_nil_iff, ← List.perm_nil, hperm.congr_left, List.perm_nil]
    rw [allKept, allVerdicts_eq_conjunction hne', conjunction_eq_of_perm (hperm.map _)]
  refine ⟨hkept, hkept.trans ?_⟩
  -- nothing unknown was seen before the search
  rw [search_eq, if_pos rfl]
  generalize conjunction (tests.map (nullKept alpha)) = verdict
  revert verdict
  decide

/-- Verdicts about overlapping sets of assumptions. -/
def overlappingRecords : List (AssumptionSet × Option Bool) :=
  [(.ofList [.normalDistribution, .equalVariances], some true),
    (.ofList [.equalVariances, .noOutliers], some false), (∅, some true),
    ({.normalDistribution}, none), ({.largeSampleSize}, some true)]

/-- The normal distribution is left open again, and equal variances are contradicted.  A check that
fails decides about the checks of three samples, although one of them could not be made. -/
theorem evidence_of_overlappingRecords :
    let e := ofRecords overlappingRecords
    let failing : Option (TestOutput Float) := some ⟨3, 0.01, none⟩
    let passing : Option (TestOutput Float) := some ⟨1, 0.5, none⟩
    e.Consistent ∧ e.verdict {.equalVariances} = some false ∧
      e.verdict {.normalDistribution} = none ∧ e.verdict {.largeSampleSize} = some true ∧
      e.verdict (.ofList [.normalDistribution, .largeSampleSize]) = none ∧
      e.verdict (.ofList [.normalDistribution, .largeSampleSize, .noOutliers]) = some false ∧
      [none, failing, passing] ≠ [] ∧ [passing, none, failing].Perm [none, failing, passing] ∧
      allKept 0.05 [passing, none, failing] = some false := by
  intro e failing passing
  obtain ⟨hconsistent, -, hlast, hseveral, hchecks⟩ :=
    evidence_keeps_last_verdicts (α := Float) overlappingRecords
  have hne : [none, failing, passing] ≠ [] := List.cons_ne_nil _ _
  have hperm : [passing, none, failing].Perm [none, failing, passing] :=
    @List.perm_append_comm _ [passing] [none, failing]
  refine ⟨hconsistent, (hlast _).trans (by decide), (hlast _).trans (by decide),
    (hlast _).trans (by decide), ?_, ?_, hne, hperm, ?_⟩
  · rw [hseveral _ [.normalDistribution, .largeSampleSize] fun a => by simp]
    simp only [List.map, hlast]
    decide
  · rw [hseveral _ [.normalDistribution, .largeSampleSize, .noOutliers] fun a => by simp]
    simp only [List.map, hlast]
    decide
  · rw [(hchecks 0.05 _ _ hne hperm).1]
    decide +kernel

end StudyAnalysis
