/-
**What of a design and of the declarations a hypothesis depends on.**

A design has lists for two kinds of studies, lists of factors that vary within and between subjects,
a significance threshold and effect sizes of interest.  Once it is known to be consistent, only the
kind that it resolves to, the two lists of that kind, the factors within subjects and the threshold
are looked at.  Of what a user declares only what is asserted for all comparisons or for one of the
variables of the hypothesis is, whatever else was asserted and in whatever order.

Main definitions:

* `StudyAnalysis.Design.SameStudy` — two designs of one study;
* `StudyAnalysis.Assertion` — one step of building declarations;
* `StudyAnalysis.Declared.assertAll` — declarations after several assertions.

Main results:

* `StudyAnalysis.combine_sameStudy` — roles, pairing and comparisons are those of the study;
* `StudyAnalysis.Declared.agree_assertAll` — neither the order of assertions nor those
  about other variables matter;
* `StudyAnalysis.evaluate_sameStudy` — **nothing else of a design or of the declarations reaches an
  evaluation**.
-/

import StudyAnalysis.Proofs.Hypothesis.Contexts
import StudyAnalysis.Proofs.Hypothesis.SessionRuns

set_option autoImplicit false
set_option relaxedAutoImplicit false

namespace StudyAnalysis

open Fallible

variable {α : Type}

/-! ### Two designs of one study -/

/-- Two consistent designs that resolve to the same kind of study, with the same variables for that
kind, the same factors within subjects and the same threshold. -/
structure Design.SameStudy [Numeric α] (design design' : Design α) : Prop where
  valid : design.validate = .ok ()
  valid' : design'.validate = .ok ()
  resolve_eq : design'.resolve = design.resolve
  explanatory_eq : ∀ kind, design.resolve = .ok kind → design'.explanatory kind =
    design.explanatory kind
  responses_eq : ∀ kind, design.resolve = .ok kind → design'.responses kind =
    design.responses kind
  mem_withinSubjects : ∀ name, name ∈ design'.withinSubjects ↔ name ∈ design.withinSubjects
  alpha_eq : design'.alpha = design.alpha

namespace Design.SameStudy

variable [Numeric α] {design design' : Design α} (h : design.SameStudy design')

include h

theorem roleOf_eq {kind : StudyKind} (hkind : design.resolve = .ok kind) (name : String) :
    design'.roleOf kind name = design.roleOf kind name := by
  rw [roleOf, roleOf, h.explanatory_eq kind hkind, h.responses_eq kind hkind]

theorem isWithinSubjects_eq (name : String) :
    design'.isWithinSubjects name = design.isWithinSubjects name := by
  rw [isWithinSubjects, isWithinSubjects, Bool.eq_iff_iff, List.contains_iff_mem,
    List.contains_iff_mem]
  exact h.mem_withinSubjects name

theorem forDesign_eq (settings : Settings α) :
    settings.forDesign design' = settings.forDesign design := by
  rw [Settings.forDesign, Settings.forDesign, h.alpha_eq]

end Design.SameStudy

section Combination

variable [Numeric α] [Tails α] {design design' : Design α}

theorem annotate_sameStudy (h : design.SameStudy design') {kind : StudyKind}
    (hkind : design.resolve = .ok kind) : annotate design' kind = annotate (α := α) design kind := by
  funext b
  rw [annotate.eq_def, annotate.eq_def]
  cases b.var with
  | none => rfl
  | some v => simp only [h.roleOf_eq hkind]

variable [NumberText α]

theorem pairProperties_sameStudy (h : design.SameStudy design') (d : Dataset α) (kind : StudyKind)
    (hasRoles : Bool) (e r : AnnotatedVariable α) :
    pairProperties d design' kind hasRoles e r = pairProperties d design kind hasRoles e r := by
  simp only [pairProperties, h.isWithinSubjects_eq]

/-- **Roles, pairing and comparisons are those of the study**, and so is whether there are any. -/
theorem combine_sameStudy (h : design.SameStudy design') (d : Dataset α)
    (bindings : List (Binding α)) : combine d bindings design' = combine d bindings design := by
  rw [combine, combine, h.resolve_eq]
  cases hkind : design.resolve with
  | error err => rfl
  | ok kind => simp only [ok_bind, annotate_sameStudy h hkind, pairProperties_sameStudy h]

end Combination

/-! ### Declarations -/

/-- A step of building declarations: propositions are asserted for all comparisons, or for those of
one variable. -/
inductive Assertion
  | always (flags : AssumptionSet)
  | about (name : String) (flags : AssumptionSet)

namespace Assertion

/-- Whether an assertion is for all comparisons or for those of one of some variables. -/
def Concerns (names : List String) : Assertion → Prop
  | always _ => True
  | about name _ => name ∈ names

end Assertion

namespace Declared

/-- The declarations after one more assertion. -/
def assert (declared : Declared) : Assertion → Declared
  | .always flags => declared.withGlobal flags
  | .about name flags => declared.withVariable name flags

/-- The declarations after several more assertions. -/
def assertAll (declared : Declared) (assertions : List Assertion) : Declared :=
  assertions.foldl assert declared

theorem forVariable_withVariable (declared : Declared) (name other : String)
    (flags : AssumptionSet) : (declared.withVariable name flags).forVariable other =
      if name = other then declared.forVariable name ∪ flags else declared.forVariable other := by
  rw [forVariable, withVariable, NameMap.get?_insert]
  split <;> rfl

/-- What is asserted for all comparisons is what any of the assertions says of them. -/
theorem mem_global_assertAll {declared : Declared} {assertions : List Assertion} {a : Assumption} :
    a ∈ (declared.assertAll assertions).global ↔
      a ∈ declared.global ∨ ∃ flags, .always flags ∈ assertions ∧ a ∈ flags := by
  induction assertions generalizing declared with
  | nil => simp [assertAll]
  | cons first rest ih =>
      show a ∈ ((declared.assert first).assertAll rest).global ↔ _
      rw [ih]
      cases first with
      | always flags => simp [assert, withGlobal, or_and_right, exists_or, or_assoc]
      | about name flags => simp [assert, withVariable]

/-- What is asserted for one variable is what any of the assertions says of it. -/
theorem mem_forVariable_assertAll {declared : Declared} {assertions : List Assertion}
    {name : String} {a : Assumption} :
    a ∈ (declared.assertAll assertions).forVariable name ↔
      a ∈ declared.forVariable name ∨ ∃ flags, .about name flags ∈ assertions ∧ a ∈ flags := by
  induction assertions generalizing declared with
  | nil => simp [assertAll]
  | cons first rest ih =>
      show a ∈ ((declared.assert first).assertAll rest).forVariable name ↔ _
      rw [ih]
      cases first with
      | always flags =>
          have hsame : (declared.withGlobal flags).forVariable name = declared.forVariable name :=
            rfl
          simp [assert, hsame]
      | about other flags =>
          rw [assert, forVariable_withVariable]
          by_cases hname : other = name
          · subst hname
            simp [or_and_right, exists_or, or_assoc]
          · simp [hname, Ne.symm hname]

/-- Two declarations agree on all comparisons of some variables. -/
structure Agree (names : List String) (declared declared' : Declared) : Prop where
  global_eq : declared'.global = declared.global
  forVariable_eq : ∀ name ∈ names, declared'.forVariable name = declared.forVariable name

theorem Agree.forVariables_eq {names compared : List String} {declared declared' : Declared}
    (h : Agree names declared declared') (hsubset : compared ⊆ names) :
    declared'.forVariables compared = declared.forVariables compared := by
  ext a
  rw [mem_forVariables, mem_forVariables, h.global_eq]
  have hsame : ∀ name ∈ compared, (a ∈ declared'.forVariable name ↔ a ∈ declared.forVariable name) :=
    fun name hname => by rw [h.forVariable_eq name (hsubset hname)]
  exact or_congr_right (exists_congr fun name => and_congr_right (hsame name))

/-- **Neither the order of assertions nor those about other variables matter.** -/
theorem agree_assertAll {names : List String} (declared : Declared)
    {assertions assertions' : List Assertion}
    (h : ∀ step : Assertion, step.Concerns names → (step ∈ assertions' ↔ step ∈ assertions)) :
    Agree names (declared.assertAll assertions) (declared.assertAll assertions') where
  global_eq := by
    ext a
    rw [mem_global_assertAll, mem_global_assertAll]
    exact or_congr_right (exists_congr fun flags => and_congr_left' (h (.always flags) trivial))
  forVariable_eq name hname := by
    ext a
    rw [mem_forVariable_assertAll, mem_forVariable_assertAll]
    exact or_congr_right (exists_congr fun flags => and_congr_left' (h (.about name flags) hname))

end Declared

/-! ### Evaluation -/

section Evaluation

variable [Numeric α] [Tails α] [NumberText α] {d : Dataset α} {names : List String}

/-- A comparison has the names of the two variables that it compares. -/
theorem names_of_pairProperties {design : Design α} {kind : StudyKind} {hasRoles : Bool}
    {e r : AnnotatedVariable α} {p : PairProperties α}
    (h : pairProperties d design kind hasRoles e r = .ok p) :
    p.names = [e.var.name, r.var.name] := by
  rw [pairProperties] at h
  cases hlayout : layoutOf kind e r with
  | groups factor outcome =>
      rw [hlayout] at h
      obtain ⟨_, -, h⟩ := bind_eq_ok_iff.1 h
      obtain ⟨_, -, h⟩ := bind_eq_ok_iff.1 h
      obtain rfl := Except.ok.inj h
      rfl
  | correlation | contingency =>
      rw [hlayout] at h
      obtain rfl := Except.ok.inj h
      rfl

omit [NumberText α] in
theorem exists_of_annotate {design : Design α} {kind : StudyKind} {b : Binding α}
    {v : AnnotatedVariable α} (h : annotate design kind b = .ok v) : b.var = some v.var := by
  rw [annotate.eq_def] at h
  split at h
  · obtain rfl := Except.ok.inj h
    assumption
  · cases h

/-- The comparisons of what is selected from some columns are named after these columns. -/
theorem names_subset_of_combine (hd : d.WellFormed) {bindings : List (Binding α)}
    (hbindings : ∀ b ∈ bindings, b.SelectedAmong d names) {design : Design α} {c : Combination α}
    (h : combine d bindings design = .ok c) : ∀ p ∈ c.pairs, p.names ⊆ names := by
  obtain ⟨hasRoles, compared, -, hvars, hcompared, hpairs⟩ := combine_eq_ok_iff.1 h
  have hnames : ∀ v ∈ c.vars, v.var.name ∈ names := by
    intro v hv
    obtain ⟨b, hb, hannotate⟩ := exists_of_mem_mapM hvars hv
    exact (hbindings b hb).name_mem hd (exists_of_annotate hannotate)
  intro p hp
  obtain ⟨q, hq, hpair⟩ := exists_of_mem_mapM hpairs hp
  obtain ⟨he, hr⟩ := mem_of_comparisons hcompared q hq
  rw [names_of_pairProperties hpair]
  simp [hnames q.1 he, hnames q.2 hr]

omit [Numeric α] [Tails α] [NumberText α] in
theorem Binding.SelectedAmong.restrict {b : Binding α} (h : b.SelectedAmong d names)
    (rows : List Nat) : (b.restrict rows).SelectedAmong d names := by
  obtain ⟨e, hnames, hdrawn⟩ := h
  exact ⟨e, hnames, hdrawn.of_sublist List.filter_sublist rfl⟩

/-- Designs of one study and declarations that agree on some columns test alike whatever is selected
from these. -/
theorem testBindings_sameStudy (hd : d.WellFormed) {design design' : Design α}
    (hdesign : design.SameStudy design') {declared declared' : Declared}
    (hdeclared : Declared.Agree names declared declared') {bindings : List (Binding α)}
    (hbindings : ∀ b ∈ bindings, b.SelectedAmong d names) (settings : Settings α)
    (predictions : List Prediction) :
    testBindings d settings declared' design' bindings predictions =
      testBindings d settings declared design bindings predictions := by
  rw [testBindings, testBindings]
  refine bind_congr fun _ => ?_
  rw [combine_sameStudy hdesign]
  cases hc : combine d (bindings.map (·.restrict (Binding.commonRows bindings))) design with
  | error err => rfl
  | ok c =>
      have hrestricted : ∀ b ∈ bindings.map (·.restrict (Binding.commonRows bindings)),
          b.SelectedAmong d names := by
        intro b hb
        obtain ⟨b', hb', rfl⟩ := List.mem_map.1 hb
        exact (hbindings b' hb').restrict _
      refine mapM_congr fun p hp => ?_
      rw [testComparison, testComparison,
        hdeclared.forVariables_eq (names_subset_of_combine hd hrestricted hc p hp)]

theorem testAlike_of_sameStudy (hd : d.WellFormed) {design design' : Design α}
    (hdesign : design.SameStudy design') {declared declared' : Declared}
    (hdeclared : Declared.Agree names declared declared') (settings : Settings α) :
    Context.TestAlike d names ⟨settings, some design, declared⟩
      ⟨settings, some design', declared'⟩ where
  bootstrap_eq := rfl
  designs := ⟨design, design', rfl, rfl, hdesign.valid'.trans hdesign.valid.symm,
    fun bindings predictions hbindings => by
      rw [hdesign.forDesign_eq]
      exact testBindings_sameStudy hd hdesign hdeclared hbindings _ predictions⟩

/-- **Nothing else of a design or of the declarations reaches an evaluation.**  Under two designs of
one study, variables have the same roles and make the same comparisons.  If moreover two declarations
agree on all comparisons and on the columns of an expression, the expression has the same value under
both, or fails in the same way.  So it has after two sequences of assertions that say the same for
all comparisons and about these columns, in whatever order and whatever they say about other
columns. -/
theorem evaluate_sameStudy (hd : d.Built) {design design' : Design α}
    (hdesign : design.SameStudy design') (settings : Settings α) (e : Expression α) :
    (∀ bindings, combine d bindings design' = combine d bindings design) ∧
    (∀ declared declared', Declared.Agree e.columnNames declared declared' →
      evaluate d ⟨settings, some design', declared'⟩ e =
        evaluate d ⟨settings, some design, declared⟩ e) ∧
    ∀ (declared : Declared) (assertions assertions' : List Assertion),
      (∀ step : Assertion, step.Concerns e.columnNames →
        (step ∈ assertions' ↔ step ∈ assertions)) →
      evaluate d ⟨settings, some design', declared.assertAll assertions'⟩ e =
        evaluate d ⟨settings, some design, declared.assertAll assertions⟩ e := by
  have hagree : ∀ declared declared', Declared.Agree e.columnNames declared declared' →
      evaluate d ⟨settings, some design', declared'⟩ e =
        evaluate d ⟨settings, some design, declared⟩ e := by
    intro declared declared' hdeclared
    have halike := testAlike_of_sameStudy hd.wellFormed hdesign hdeclared settings
    -- both contexts have the same settings, so that not even a mean tells them apart
    by_cases hmean : ∃ operand, e = .mean operand
    · obtain ⟨operand, rfl⟩ := hmean
      have hnames : operand.columnNames ⊆ (Expression.mean operand).columnNames :=
        List.Subset.refl _
      obtain ⟨basis, hx, hx'⟩ := halike.exists_basis hnames
      exact hx'.trans hx.symm
    · exact halike.evaluate_eq (List.Subset.refl _) (not_exists.1 hmean)
  refine ⟨combine_sameStudy hdesign d, hagree, fun declared assertions assertions' h => ?_⟩
  exact hagree _ _ (declared.agree_assertAll h)

end Evaluation

/-! ### Two designs for the doses -/

theorem built_doses : doses.Built :=
  .ofColumns (show Dataset.ofColumns doses.columns.values = .ok doses from rfl)

/-- The study of the doses, whose kind is left to its variables. -/
def plainDesign : Design Float :=
  { (Design.observational ["dose"] ["response"] : Design Float) with kind := none }

/-- The study of the doses, with lists for an experiment in which doses and responses change their
places, factors between subjects and an effect size of interest. -/
def crowdedDesign : Design Float :=
  { (Design.observational ["dose"] ["response"] : Design Float) with
    independent := ["response", "arm"]
    dependent := ["dose"]
    betweenSubjects := ["dose", "arm"]
    effectSizes := [1 / 2] }

theorem sameStudy_crowdedDesign : plainDesign.SameStudy crowdedDesign where
  valid := rfl
  valid' := rfl
  resolve_eq := rfl
  explanatory_eq kind h := by
    cases h
    rfl
  responses_eq kind h := by
    cases h
    rfl
  mem_withinSubjects _ := Iff.rfl
  alpha_eq := rfl

/-- Pearson's coefficient of the doses is tested under both designs, with the same result if the same
is asserted, one time first for all comparisons and the other time last. -/
theorem evaluate_doses_sameStudy :
    let first := Declared.nothing.assertAll [.always (.ofList [.linearRelationship]),
      .about "dose" (.ofList [.bivariateNormal])]
    let last := Declared.nothing.assertAll [.about "arm" (.ofList [.monotonicRelationship]),
      .about "dose" (.ofList [.bivariateNormal]), .always (.ofList [.linearRelationship])]
    doses.Built ∧ plainDesign.SameStudy crowdedDesign ∧ ∃ r,
      evaluate doses ⟨.standard, some plainDesign, first⟩ (doseHypothesis [.positive]) =
        .ok (.tested [r]) ∧
      evaluate doses ⟨.standard, some crowdedDesign, last⟩ (doseHypothesis [.positive]) =
        .ok (.tested [r]) ∧
      r.method = .pearson := by
  intro first last
  have hpearson : hasOneSided .pearson "r" (fun _ => true)
      (evaluate doses ⟨.standard, some plainDesign, first⟩ (doseHypothesis [.positive])) = true := by
    decide +kernel
  obtain ⟨r, _, hr, -, hmethod, -, -⟩ := exists_of_hasOneSided hpearson
  obtain ⟨-, -, hassertions⟩ := evaluate_sameStudy built_doses sameStudy_crowdedDesign .standard
    (doseHypothesis [.positive])
  refine ⟨built_doses, sameStudy_crowdedDesign, r, hr, ?_, hmethod⟩
  refine (hassertions _ _ _ fun step hstep => ?_).trans hr
  cases step with
  | always flags => simp
  | about name flags =>
      have harm : name ≠ "arm" := by
        rintro rfl
        simp [Assertion.Concerns, doseHypothesis, Expression.columnNames, Expression.columnNamesOf]
          at hstep
      simp [harm]

end StudyAnalysis
