/-
**The samples of a comparison fit its shape.**

The properties of a comparison name its shape beside its samples, and the test is chosen by the
shape alone.  This module says that the two never disagree, whatever the layout and whatever is
missing in the data, so that the chosen test can always be run.

Main results:

* `StudyAnalysis.length_of_alignPaired` — related groups are aligned to samples of one length;
* `StudyAnalysis.combine_eq_ok_iff` — when the comparisons of some bindings can be prepared;
* `StudyAnalysis.fits_of_pairProperties`, `StudyAnalysis.fits_of_combine` — the samples of every
  comparison fit its shape;
* `StudyAnalysis.combine_fits_and_runs` — **whatever test is chosen for a comparison can be run on
  its samples**.
-/

import StudyAnalysis.Proofs.Data.WellFormed
import StudyAnalysis.Proofs.Fallible
import StudyAnalysis.Proofs.Hypothesis.PairedAlignment
import StudyAnalysis.Proofs.Selection.SampleLayout

set_option autoImplicit false
set_option relaxedAutoImplicit false

namespace StudyAnalysis

open Fallible

variable {α : Type} {d : Dataset α}

/-! ### Related groups -/

section Alignment

variable [NumberText α] {name : String} {paired : Bool} {groups : List (RowValues α)}
  {samples : List (List α)}

/-- **Related groups are aligned to samples of one length**, one for every group. -/
theorem length_of_alignPaired (h : alignPaired d name groups = .ok samples) :
    samples.length = groups.length ∧ ∃ n, ∀ s ∈ samples, s.length = n := by
  cases hkey : d.key with
  | none =>
      obtain ⟨⟨n, hn⟩, rfl⟩ := (alignPaired_eq_ok_iff hkey).1 h
      refine ⟨List.length_map _, n, List.forall_mem_map.2 fun g hg => ?_⟩
      rw [List.length_map, hn g hg]
  | some _ =>
      rw [alignPaired, hkey] at h
      obtain rfl := Except.ok.inj h
      refine ⟨by rw [List.length_map, List.length_map],
        (participants (groups.map (identified d))).length, List.forall_mem_map.2 fun g hg => ?_⟩
      -- no participant is lost in any group, since only those who occur in all of them are kept
      exact List.filterMap_length_eq_length.2 fun id hid => isSome_find_of_mem_participants hid hg

theorem length_of_groupSamples (h : groupSamples d name paired groups = .ok samples) :
    samples.length = groups.length := by
  cases paired with
  | true => exact (length_of_alignPaired h).1
  | false =>
      obtain rfl := Except.ok.inj h
      exact List.length_map _

end Alignment

/-! ### Comparisons -/

section Comparisons

variable [Numeric α] [Tails α] {e r factor outcome : AnnotatedVariable α} {paired : Bool}
  {base p : PairProperties α}

theorem fits_of_groupProperties [NumberText α]
    (h : groupProperties d factor outcome paired base = .ok p) : p.samples.Fits p.shape := by
  obtain ⟨groups, -, h⟩ := bind_eq_ok_iff.1 h
  obtain ⟨samples, hsamples, h⟩ := bind_eq_ok_iff.1 h
  obtain rfl := Except.ok.inj h
  have hlength : samples.length = (groups.map (·.1)).length := by
    rw [length_of_groupSamples hsamples, List.length_map, List.length_map]
  cases paired with
  | false => exact .groups hlength
  | true =>
      obtain ⟨-, n, haligned⟩ := length_of_alignPaired hsamples
      exact .paired hlength haligned

theorem fits_correlationProperties :
    (correlationProperties e r base).samples.Fits (correlationProperties e r base).shape :=
  .bivariate (by rw [List.length_map, List.length_map])

omit [Tails α] in
theorem fits_contingencyProperties :
    (contingencyProperties e r base).samples.Fits (contingencyProperties e r base).shape := by
  rw [contingencyProperties]
  dsimp only
  -- the shape counts the occurring labels, of which the samples name each one
  rw [← @List.length_map _ _ (occurringLabels e.var _) (·.1),
    ← @List.length_map _ _ (occurringLabels r.var _) (·.1)]
  refine .contingency (by rw [List.length_map, List.length_map]) fun row hrow => ?_
  obtain ⟨_, -, rfl⟩ := List.mem_map.1 hrow
  rw [List.length_map, List.length_map]

/-- **The samples of every comparison fit its shape.** -/
theorem fits_of_pairProperties [NumberText α] {design : Design α} {kind : StudyKind}
    {hasRoles : Bool} (h : pairProperties d design kind hasRoles e r = .ok p) :
    p.samples.Fits p.shape := by
  rw [pairProperties] at h
  cases hlayout : layoutOf kind e r with
  | groups factor outcome =>
      rw [hlayout] at h
      exact fits_of_groupProperties h
  | correlation =>
      rw [hlayout] at h
      obtain rfl := Except.ok.inj h
      exact fits_correlationProperties
  | contingency =>
      rw [hlayout] at h
      obtain rfl := Except.ok.inj h
      exact fits_contingencyProperties

variable [NumberText α] {bindings : List (Binding α)} {design : Design α} {c : Combination α}

/-- The comparisons of some bindings can be prepared exactly if the kind of the study is known, no
binding is a literal, some variables are to be compared, and each comparison can be prepared. -/
theorem combine_eq_ok_iff :
    combine d bindings design = .ok c ↔
      ∃ hasRoles compared, design.resolve = .ok c.kind ∧
        bindings.mapM (annotate design c.kind) = .ok c.vars ∧
        comparisons c.vars = .ok (hasRoles, compared) ∧
        (compared.mapM fun p => pairProperties d design c.kind hasRoles p.1 p.2) = .ok c.pairs := by
  simp only [combine, bind_eq_ok_iff, pure_eq_ok, Except.ok.injEq, Prod.exists]
  constructor
  · rintro ⟨kind, hkind, vars, hvars, hasRoles, compared, hcompared, pairs, hpairs, rfl⟩
    exact ⟨hasRoles, compared, hkind, hvars, hcompared, hpairs⟩
  · rintro ⟨hasRoles, compared, hkind, hvars, hcompared, hpairs⟩
    exact ⟨c.kind, hkind, c.vars, hvars, hasRoles, compared, hcompared, c.pairs, hpairs, rfl⟩

theorem fits_of_combine (h : combine d bindings design = .ok c) (hp : p ∈ c.pairs) :
    p.samples.Fits p.shape := by
  obtain ⟨_, _, -, -, -, hpairs⟩ := combine_eq_ok_iff.1 h
  obtain ⟨_, -, hpair⟩ := exists_of_mem_mapM hpairs hp
  exact fits_of_pairProperties hpair

/-- **Whatever test is chosen for a comparison can be run on its samples**: they fit the shape by
which the test is chosen, so that the test never meets samples of another layout. -/
theorem combine_fits_and_runs (h : combine d bindings design = .ok c) (hp : p ∈ c.pairs) :
    p.samples.Fits p.shape ∧
      ∀ (e : Evidence) (declared : AssumptionSet) (settings : Settings α) (s : Selection),
        select p e declared settings = .ok s →
          ∀ (settings' : Settings α) (m m' : TestMethod),
            execute s.method p.samples settings' ≠
              .error (.testFailed m (.degenerate (.unsuited m'))) := by
  have hfits := fits_of_combine h hp
  exact ⟨hfits, fun e declared settings s hs settings' m m' =>
    execute_ne_unsuited hfits (appliesTo_of_select hs) settings' m m'⟩

end Comparisons

/-! ### Two trials of which a participant missed one -/

/-- The scores of three participants in two trials; the last one missed the second trial. -/
def trials : Dataset Float where
  columns := .ofList [
    ("participant", ⟨⟨"participant", .nominal, some ["ann", "bob", "cleo"]⟩,
      [.text "ann", .text "bob", .text "cleo", .text "bob", .text "ann"]⟩),
    ("score", ⟨⟨"score", .ratio, none⟩, [.real 1, .real 2, .real 4, .real 3, .real 5]⟩),
    ("trial", ⟨⟨"trial", .nominal, some ["first", "second"]⟩,
      [.text "first", .text "first", .text "first", .text "second", .text "second"]⟩)]
  rowCount := 5
  key := some "participant"

theorem built_trials : trials.Built := by
  have hcolumns : Dataset.ofColumns trials.columns.values = .ok { trials with key := none } := rfl
  have hkey : Dataset.withKey { trials with key := none } "participant" = .ok trials := rfl
  exact .withKey (.ofColumns hcolumns) hkey

/-- Of both trials the scores of those two participants are compared who took part in both. -/
theorem combine_trials_fits_and_runs :
    let design : Design Float :=
      (Design.experiment ["trial"] ["score"]).withWithinSubjects ["trial"]
    ∃ bindings c p, ["trial", "score"].mapM (Binding.ofColumn trials) = .ok bindings ∧
      combine trials bindings design = .ok c ∧ c.pairs = [p] ∧
      p.shape = .groupComparison 2 true ∧
      p.samples = .paired ["first", "second"] [[1, 2], [5, 3]] ∧ p.samples.Fits p.shape ∧
      ∀ e declared settings s, select p e declared settings = .ok s → ∀ settings' m m',
        execute s.method p.samples settings' ≠
          .error (.testFailed m (.degenerate (.unsuited m'))) := by
  intro design
  obtain ⟨bindings, c, p, hbindings, hc, hpairs, hshape, hsamples⟩ : ∃ bindings c p,
      ["trial", "score"].mapM (Binding.ofColumn trials) = .ok bindings ∧
        combine trials bindings design = .ok c ∧ c.pairs = [p] ∧
        p.shape = .groupComparison 2 true ∧
        p.samples = .paired ["first", "second"] [[1, 2], [5, 3]] :=
    ⟨_, _, _, rfl, rfl, rfl, rfl, rfl⟩
  have hp : p ∈ c.pairs := by
    rw [hpairs]
    exact List.mem_singleton_self p
  exact ⟨bindings, c, p, hbindings, hc, hpairs, hshape, hsamples, combine_fits_and_runs hc hp⟩

end StudyAnalysis
