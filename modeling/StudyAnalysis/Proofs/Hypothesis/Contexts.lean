/-
**What an evaluation reads of its context.**

Columns, literals and filters read nothing of the context.  A hypothesis reads the design and what is
declared, and of the settings only what they are under the design.  A mean reads the settings alone:
its resamples are drawn before the significance threshold is looked at, which only says where the
ends of the interval are.  So if two contexts test the same variables alike, they evaluate every
expression over these variables alike, apart from the interval of a mean.

Main definitions:

* `StudyAnalysis.Expression.columnNames` — the columns that occur in an expression;
* `StudyAnalysis.Context.TestAlike` — contexts that test alike whatever is selected from some columns;
* `StudyAnalysis.MeanBasis` — what a mean is estimated from.

Main results:

* `StudyAnalysis.estimateMean_eq` — the threshold only enters the interval of a mean;
* `StudyAnalysis.Context.TestAlike.evaluateBinding_eq` — selections and operands do not tell such
  contexts apart;
* `StudyAnalysis.Context.TestAlike.evaluate_eq`, `StudyAnalysis.Context.TestAlike.exists_basis` —
  **neither do other expressions, apart from the interval of a mean**.
-/

import StudyAnalysis.Proofs.Hypothesis.FilterChecks
import StudyAnalysis.Proofs.Hypothesis.RowRestriction

set_option autoImplicit false
set_option relaxedAutoImplicit false

namespace StudyAnalysis

open Fallible

variable {α : Type}

/-! ### The columns of an expression -/

namespace Expression

mutual

/-- The names of the columns that occur in an expression. -/
def columnNames : Expression α → List String
  | column name => [name]
  | literal _ => []
  | filter _ left right => left.columnNames ++ right.columnNames
  | hypothesis _ operands _ => columnNamesOf operands
  | mean operand => operand.columnNames
  | median operand => operand.columnNames

/-- The names of the columns that occur in several expressions. -/
def columnNamesOf : List (Expression α) → List String
  | [] => []
  | e :: es => e.columnNames ++ columnNamesOf es

end

theorem mem_columnNames_of_source {name : String} :
    ∀ {e : Expression α}, e.source = .column name → name ∈ e.columnNames
  | column _, h => by
      cases h
      exact List.mem_singleton_self name
  | literal _, h => by cases h
  | filter _ _ _, h => List.mem_append_left _ (mem_columnNames_of_source h)
  | hypothesis _ _ _, h => by cases h
  | mean _, h => by cases h
  | median _, h => by cases h

end Expression

/-- A binding is selected from one of some columns, or repeats a literal. -/
def Binding.SelectedAmong (d : Dataset α) (names : List String) (b : Binding α) : Prop :=
  ∃ e : Expression α, e.columnNames ⊆ names ∧ b.DrawnFrom d e.source

/-- The variable of such a binding is that of one of the columns. -/
theorem Binding.SelectedAmong.name_mem {d : Dataset α} {names : List String} {b : Binding α}
    (hd : d.WellFormed) (hb : b.SelectedAmong d names) {v : Variable} (hv : b.var = some v) :
    v.name ∈ names := by
  obtain ⟨e, hnames, hdrawn⟩ := hb
  obtain ⟨name, c, hsource, hc, rfl, -⟩ := hdrawn.of_var_eq_some hv
  rw [hd.name_eq hc]
  exact hnames (Expression.mem_columnNames_of_source hsource)

/-! ### Means -/

section Means

variable [Numeric α]

/-- What the mean of a variable is estimated from. -/
structure MeanBasis (α : Type) where
  variableName : String
  values : List α
  /-- The means of the resamples. -/
  resampled : List α

/-- The quantiles of some resampled means that leave a significance threshold to both sides. -/
def intervalEnds (resampled : List α) (alpha : α) : α × α :=
  let tail := (1 - Numeric.clamp 0 1 (1 - alpha)) / 2
  (quantile resampled tail, quantile resampled (1 - tail))

/-- The estimate under some settings. -/
def MeanBasis.summary (m : MeanBasis α) (settings : Settings α) : Summary α where
  variableName := m.variableName
  sampleSize := m.values.length
  estimate := mean m.values
  interval := if settings.bootstrap.enabled then some (intervalEnds m.resampled settings.alpha)
    else none

/-- What the mean of a binding is estimated from, if it has one. -/
def meanBasis (text : String) (bootstrap : BootstrapSettings) (b : Binding α) :
    Except (AnalysisError α) (MeanBasis α) := do
  let some v := b.var | throw (.malformedRelation text .literalAveraged)
  if !v.scale.isContinuous then
    throw (.meanUnsupported v.name v.scale)
  let xs := b.values.filterMap Cell.number?
  if xs.isEmpty then
    throw (.meanFailed (.insufficientData 1 0))
  if bootstrap.enabled && bootstrap.resamples == 0 then
    throw (.meanFailed (.insufficientData 1 0))
  let start := ChaCha.Stream.ofSeed bootstrap.seed.toUInt64
  return ⟨v.name, xs, if h : 0 < xs.toArray.size then
    resampledMeans ChaCha.source xs.toArray h bootstrap.resamples start else []⟩

/-- **The threshold only enters the interval of a mean**, and only after everything else. -/
theorem estimateMean_eq (text : String) (settings : Settings α) (b : Binding α) :
    estimateMean text settings b =
      (meanBasis text settings.bootstrap b).map (·.summary settings) := by
  rw [estimateMean, meanBasis]
  cases b.var with
  | none => rfl
  | some v =>
      dsimp only
      by_cases hscale : (!v.scale.isContinuous) = true
      · rw [if_pos hscale, if_pos hscale]
        rfl
      rw [if_neg hscale, if_neg hscale]
      generalize b.values.filterMap Cell.number? = xs
      by_cases hempty : xs.isEmpty = true
      · rw [if_pos hempty, if_pos hempty]
        rfl
      rw [if_neg hempty, if_neg hempty]
      -- resampling asks once more for a value, which is known to be there
      have hrequired : require xs 1 = .ok () := by
        cases xs with
        | nil => exact absurd rfl hempty
        | cons x xs => simp [require]
      by_cases henabled : settings.bootstrap.enabled = true
      · by_cases hresamples : settings.bootstrap.resamples = 0
        · simp [henabled, hresamples, bootstrapMeanInterval, hrequired, Except.mapError, Except.map]
          rfl
        · simp [henabled, hresamples, bootstrapMeanInterval, hrequired, Except.mapError, Except.map,
            MeanBasis.summary, intervalEnds]
      · simp [henabled, Except.map, MeanBasis.summary]

end Means

/-! ### One step of an evaluation -/

section Evaluation

variable [Numeric α] [Tails α] [NumberText α] {d : Dataset α} {ctx ctx' : Context α}
  {names : List String}

theorem evaluate_mean_eq (operand : Expression α) :
    evaluate d ctx (.mean operand) = evaluateBinding d ctx operand >>= fun b =>
      (meanBasis (Expression.mean operand).toText ctx.settings.bootstrap b).map fun m =>
        .summary (m.summary ctx.settings) := by
  rw [evaluate, evaluateBinding, bind_assoc]
  refine bind_congr fun x => bind_congr fun b => ?_
  rw [estimateMean_eq]
  cases meanBasis _ _ b <;> rfl

/-- A mean is no operand. -/
theorem evaluateBinding_mean_eq (operand : Expression α) :
    evaluateBinding d ctx (.mean operand) = evaluateBinding d ctx operand >>= fun b =>
      meanBasis (Expression.mean operand).toText ctx.settings.bootstrap b >>= fun _ =>
        .error (.malformedRelation (Expression.mean operand).toText .operandWithoutData) := by
  rw [evaluateBinding, evaluate_mean_eq, bind_assoc]
  refine bind_congr fun b => ?_
  cases meanBasis _ _ b <;> rfl

/-- An operand is bound before it is known whether it is a literal. -/
theorem bindOperands_cons (text : String) (operand : Expression α) (rest : List (Expression α)) :
    bindOperands d ctx text (operand :: rest) = evaluateBinding d ctx operand >>= fun b =>
      if b.isLiteral then .error (.malformedRelation text (.literalVariable operand.toText))
      else (bindOperands d ctx text rest).map (b :: ·) := by
  rw [bindOperands, evaluateBinding, bind_assoc]
  refine bind_congr fun x => bind_congr fun b => ?_
  cases b.isLiteral with
  | true => rfl
  | false => cases bindOperands d ctx text rest <;> rfl

theorem evaluate_hypothesis_of_design {design : Design α} (hdesign : ctx.design = some design)
    (kind : HypothesisKind) (operands : List (Expression α)) (predictions : List Prediction) :
    let text := (Expression.hypothesis kind operands predictions).toText
    evaluate d ctx (.hypothesis kind operands predictions) = design.validate >>= fun _ =>
      if operands.length < 2 then .error (.malformedRelation text .tooFewVariables)
      else bindOperands d ctx text operands >>= fun bindings =>
        (testBindings d (ctx.settings.forDesign design) ctx.declared design bindings
          predictions).map .tested := by
  intro text
  rw [evaluate, hdesign]
  refine bind_congr fun _ => ?_
  by_cases hlength : operands.length < 2
  · rw [if_pos hlength, if_pos hlength]
    rfl
  · rw [if_neg hlength, if_neg hlength]
    rfl

theorem selectedAmong_of_evaluateBinding {e : Expression α} {b : Binding α}
    (hnames : e.columnNames ⊆ names) (h : evaluateBinding d ctx e = .ok b) :
    b.SelectedAmong d names :=
  ⟨e, hnames, drawnFrom_of_evaluate (evaluateBinding_eq_ok_iff.1 h)⟩

theorem selectedAmong_of_bindOperands {text : String} {operands : List (Expression α)}
    {bindings : List (Binding α)} (hnames : Expression.columnNamesOf operands ⊆ names)
    (h : bindOperands d ctx text operands = .ok bindings) :
    ∀ b ∈ bindings, b.SelectedAmong d names := by
  induction operands generalizing bindings with
  | nil =>
      rw [bindOperands] at h
      obtain rfl := Except.ok.inj h
      simp
  | cons operand rest ih =>
      rw [Expression.columnNamesOf, List.append_subset] at hnames
      rw [bindOperands_cons] at h
      obtain ⟨b, hb, h⟩ := bind_eq_ok_iff.1 h
      split at h
      · cases h
      · obtain ⟨bs, hbs, rfl⟩ := map_eq_ok_iff.1 h
        exact List.forall_mem_cons.2
          ⟨selectedAmong_of_evaluateBinding hnames.1 hb, ih hnames.2 hbs⟩

/-! ### Two contexts -/

/-- Two contexts have designs that are both consistent or fail for the same reason, and test alike
whatever is selected from some columns. -/
structure Context.TestAlike (d : Dataset α) (names : List String) (ctx ctx' : Context α) : Prop where
  bootstrap_eq : ctx'.settings.bootstrap = ctx.settings.bootstrap
  designs : ∃ design design', ctx.design = some design ∧ ctx'.design = some design' ∧
    design'.validate = design.validate ∧
    ∀ bindings predictions, (∀ b ∈ bindings, b.SelectedAmong d names) →
      testBindings d (ctx'.settings.forDesign design') ctx'.declared design' bindings predictions =
        testBindings d (ctx.settings.forDesign design) ctx.declared design bindings predictions

namespace Context.TestAlike

/-- A hypothesis does not tell the contexts apart if its operands do not. -/
theorem evaluate_hypothesis_eq (h : TestAlike d names ctx ctx') {kind : HypothesisKind}
    {operands : List (Expression α)} {predictions : List Prediction}
    (hnames : Expression.columnNamesOf operands ⊆ names)
    (hoperands : ∀ text, bindOperands d ctx' text operands = bindOperands d ctx text operands) :
    evaluate d ctx' (.hypothesis kind operands predictions) =
      evaluate d ctx (.hypothesis kind operands predictions) := by
  obtain ⟨design, design', hdesign, hdesign', hvalidate, htests⟩ := h.designs
  rw [evaluate_hypothesis_of_design hdesign, evaluate_hypothesis_of_design hdesign', hvalidate]
  refine bind_congr fun _ => ?_
  split
  · rfl
  rw [hoperands]
  cases hbindings : bindOperands d ctx _ operands with
  | error err => rfl
  | ok bindings =>
      rw [ok_bind, ok_bind,
        htests bindings predictions (selectedAmong_of_bindOperands hnames hbindings)]

/-- A filter does not tell the contexts apart if its operands do not. -/
theorem evaluate_filter_eq {comparison : Comparison} {left right : Expression α}
    (hleft : evaluateBinding d ctx' left = evaluateBinding d ctx left)
    (hright : evaluateBinding d ctx' right = evaluateBinding d ctx right) :
    evaluate d ctx' (.filter comparison left right) =
      evaluate d ctx (.filter comparison left right) := by
  by_cases hordered : comparison.isOrdered = true
  · cases hliteral : right.literal? with
    | none =>
        rw [evaluate_filter_ordered_none hordered hliteral,
          evaluate_filter_ordered_none hordered hliteral]
    | some comparand =>
        rw [evaluate_filter_ordered hordered hliteral, evaluate_filter_ordered hordered hliteral,
          hleft]
  · rw [evaluate_filter_equality hordered, evaluate_filter_equality hordered, hleft, hright]

mutual

/-- **Operands do not tell the contexts apart**, not even those that are no selections. -/
theorem evaluateBinding_eq (h : TestAlike d names ctx ctx') :
    ∀ e : Expression α, e.columnNames ⊆ names → evaluateBinding d ctx' e = evaluateBinding d ctx e
  | .column name, _ => by rw [evaluateBinding_column, evaluateBinding_column]
  | .literal value, _ => by rw [evaluateBinding, evaluateBinding, evaluate, evaluate]
  | .filter comparison left right, hnames => by
      rw [Expression.columnNames, List.append_subset] at hnames
      rw [evaluateBinding, evaluateBinding, evaluate_filter_eq (evaluateBinding_eq h left hnames.1)
        (evaluateBinding_eq h right hnames.2)]
  | .hypothesis kind operands predictions, hnames => by
      rw [Expression.columnNames] at hnames
      rw [evaluateBinding, evaluateBinding,
        h.evaluate_hypothesis_eq hnames (bindOperands_eq h operands hnames)]
  | .mean operand, hnames => by
      rw [Expression.columnNames] at hnames
      rw [evaluateBinding_mean_eq, evaluateBinding_mean_eq, evaluateBinding_eq h operand hnames,
        h.bootstrap_eq]
  | .median operand, _ => by rw [evaluateBinding, evaluateBinding, evaluate, evaluate]

theorem bindOperands_eq (h : TestAlike d names ctx ctx') :
    ∀ operands : List (Expression α), Expression.columnNamesOf operands ⊆ names → ∀ text,
      bindOperands d ctx' text operands = bindOperands d ctx text operands
  | [], _, text => by rw [bindOperands, bindOperands]
  | operand :: rest, hnames, text => by
      rw [Expression.columnNamesOf, List.append_subset] at hnames
      rw [bindOperands_cons, bindOperands_cons, evaluateBinding_eq h operand hnames.1,
        bindOperands_eq h rest hnames.2]

end

/-- **Nothing but a mean tells the contexts apart.** -/
theorem evaluate_eq (h : TestAlike d names ctx ctx') {e : Expression α}
    (hnames : e.columnNames ⊆ names) (hmean : ∀ operand, e ≠ .mean operand) :
    evaluate d ctx' e = evaluate d ctx e := by
  cases e with
  | column name => rw [evaluate, evaluate]
  | literal value => rw [evaluate, evaluate]
  | filter comparison left right =>
      rw [Expression.columnNames, List.append_subset] at hnames
      exact evaluate_filter_eq (h.evaluateBinding_eq left hnames.1)
        (h.evaluateBinding_eq right hnames.2)
  | hypothesis kind operands predictions =>
      rw [Expression.columnNames] at hnames
      exact h.evaluate_hypothesis_eq hnames (h.bindOperands_eq operands hnames)
  | mean operand => exact absurd rfl (hmean operand)
  | median operand => rw [evaluate, evaluate]

/-- A mean tells the contexts apart only by the settings under which it is estimated, from the same
values and the same resamples. -/
theorem exists_basis (h : TestAlike d names ctx ctx') {operand : Expression α}
    (hnames : operand.columnNames ⊆ names) :
    ∃ basis : Except (AnalysisError α) (MeanBasis α),
      evaluate d ctx (.mean operand) = basis.map (fun m => .summary (m.summary ctx.settings)) ∧
      evaluate d ctx' (.mean operand) =
        basis.map fun m => .summary (m.summary ctx'.settings) := by
  refine ⟨evaluateBinding d ctx operand >>=
    meanBasis (Expression.mean operand).toText ctx.settings.bootstrap, ?_, ?_⟩
  · rw [evaluate_mean_eq]
    cases evaluateBinding d ctx operand <;> rfl
  · rw [evaluate_mean_eq, h.evaluateBinding_eq operand hnames, h.bootstrap_eq]
    cases evaluateBinding d ctx operand <;> rfl

end Context.TestAlike

end Evaluation

end StudyAnalysis
