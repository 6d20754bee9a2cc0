/-
**Evaluating expressions.**

Columns, literals and filters are bound to cells; a mean is estimated; a hypothesis is tested in
every comparison that it makes.

Main definitions:

* `StudyAnalysis.Context` — what an evaluation reads besides data and expression;
* `StudyAnalysis.Evaluated` — what an expression evaluates to;
* `StudyAnalysis.testComparison` — the result of one comparison;
* `StudyAnalysis.evaluate` — the value of an expression.
-/

import StudyAnalysis.Assumption.Declared
import StudyAnalysis.Hypothesis.Expression
import StudyAnalysis.Hypothesis.Properties
import StudyAnalysis.Hypothesis.TestResult

set_option autoImplicit false
set_option relaxedAutoImplicit false

namespace StudyAnalysis

/-- What an evaluation reads besides data and expression. -/
structure Context (α : Type) where
  settings : Settings α
  /-- The design of the study; hypotheses need one. -/
  design : Option (Design α)
  declared : Declared

/-- The estimate of a mean. -/
structure Summary (α : Type) where
  variableName : String
  sampleSize : Nat
  estimate : α
  /-- The ends of an interval around the estimate, if resampling is enabled. -/
  interval : Option (α × α)

/-- What an expression evaluates to. -/
inductive Evaluated (α : Type)
  | data (binding : Binding α)
  | summary (summary : Summary α)
  | tested (results : List (TestResult α))

variable {α : Type}

/-- The binding that an operand evaluates to. -/
def Evaluated.binding [NumberText α] (operand : Expression α) :
    Evaluated α → Except (AnalysisError α) (Binding α)
  | data b => .ok b
  | _ => .error (.malformedRelation operand.toText .operandWithoutData)

/-- The results that a hypothesis evaluates to. -/
def Evaluated.results? : Evaluated α → Option (List (TestResult α))
  | tested results => some results
  | _ => none

variable [Numeric α]

/-! ### Filters -/

/-- The cells on the left that are equal to the cell on the right at their row, or those that are
not.  A literal on the right has to fit the variable on the left. -/
def filterEqual (keepEqual : Bool) (left right : Binding α) (literal : Option (Cell α)) :
    Except (AnalysisError α) (Binding α) := do
  if let some v := left.var then
    if let some comparand := literal then
      v.checkComparand comparand
  left.retain fun row cell => return (right.cellAt row).any cell.agrees == keepEqual

/-- The cells that stand in an ordered relation to a literal. -/
def filterOrdered (text : String) (comparison : Comparison) (left : Binding α)
    (comparand : Cell α) : Except (AnalysisError α) (Binding α) := do
  match left.var with
  | none => throw (.malformedRelation text .literalCompared)
  | some v =>
    let _ ← v.comparandKey comparison comparand
    left.retain fun _ cell => v.compare cell comparison comparand

/-! ### Means -/

/-- The estimate of the mean of a binding, with an interval that leaves the significance threshold
to both sides. -/
def estimateMean (text : String) (settings : Settings α) (b : Binding α) :
    Except (AnalysisError α) (Summary α) := do
  let some v := b.var | throw (.malformedRelation text .literalAveraged)
  if !v.scale.isContinuous then
    throw (.meanUnsupported v.name v.scale)
  let xs := b.values.filterMap Cell.number?
  if xs.isEmpty then
    throw (.meanFailed (.insufficientData 1 0))
  let start := ChaCha.Stream.ofSeed settings.bootstrap.seed.toUInt64
  let interval ←
    if settings.bootstrap.enabled then do
      let i ← (bootstrapMeanInterval ChaCha.source start xs settings.bootstrap.resamples
        (1 - settings.alpha)).mapError .meanFailed
      pure (some (i.low, i.high))
    else pure none
  return ⟨v.name, xs.length, mean xs, interval⟩

/-! ### Hypotheses -/

/-- Fails unless both groups of every predicted order are labels of one factor. -/
def checkPredictions (bindings : List (Binding α)) (predictions : List Prediction) :
    Except (AnalysisError α) Unit :=
  let factors := (bindings.filterMap (·.var)).filter (·.scale.isCategorical)
  predictions.forM fun
    | .groupOrder greater lesser =>
      if factors.any fun v => (v.rankOf greater).isSome && (v.rankOf lesser).isSome then .ok ()
      else match factors with
        | [] => .error (.unknownCategory "(no categorical variable)" greater)
        | v :: _ =>
          .error (.unknownCategory v.name (if (v.rankOf greater).isSome then lesser else greater))
    | _ => .ok ()

/-- Whether a prediction came true in the samples of a comparison; unknown if it does not apply. -/
def confirmed? (p : PairProperties α) (prediction : Prediction) : Option Bool :=
  match prediction, p.shape with
  | .groupOrder greater lesser, .groupComparison 2 _ => p.observedOrder greater lesser
  | .positive, .correlation => p.observedSign.map fun s => decide (0 < s)
  | .negative, .correlation => p.observedSign.map fun s => decide (s < 0)
  | _, _ => none

/-- A result with the predictions of its hypothesis; a single prediction that applies makes it
one-sided. -/
def withPredictions (p : PairProperties α) (predictions : List Prediction) (r : TestResult α) :
    TestResult α :=
  let r := { r with predictions }
  match predictions with
  | [prediction] =>
    match confirmed? p prediction with
    | some confirmed => r.makeOneSided confirmed
    | none => r
  | _ => r

variable [Tails α]

/-- The result of one comparison: its evidence is weighed, a test is chosen and run, and the
predictions are taken into account. -/
def testComparison (settings : Settings α) (declared : Declared) (predictions : List Prediction)
    (p : PairProperties α) : Except (AnalysisError α) (TestResult α) := do
  let s ← select p (evidence p settings) (declared.forVariables p.names) settings
  let x ← execute s.method p.samples settings
  return withPredictions p predictions (.ofExecution s x p settings)

variable [NumberText α]

/-- The results of all comparisons of some bindings, restricted to the rows that all of them
have. -/
def testBindings (d : Dataset α) (settings : Settings α) (declared : Declared)
    (design : Design α) (bindings : List (Binding α)) (predictions : List Prediction) :
    Except (AnalysisError α) (List (TestResult α)) := do
  let common := Binding.commonRows bindings
  let bindings := bindings.map (·.restrict common)
  checkPredictions bindings predictions
  let combined ← combine d bindings design
  combined.pairs.mapM (testComparison settings declared predictions)

/-! ### Expressions -/

mutual

/-- The value of an expression. -/
def evaluate (d : Dataset α) (ctx : Context α) :
    Expression α → Except (AnalysisError α) (Evaluated α)
  | .column name => do
    return .data (← Binding.ofColumn d name)
  | .literal value => .ok (.data (.ofLiteral d value))
  | .filter comparison left right =>
    if comparison.isOrdered then do
      let text := (Expression.filter comparison left right).toText
      let some comparand := right.literal?
        | throw (.malformedRelation text .comparandNotLiteral)
      let b ← (← evaluate d ctx left).binding left
      return .data (← filterOrdered text comparison b comparand)
    else do
      let l ← (← evaluate d ctx left).binding left
      let r ← (← evaluate d ctx right).binding right
      return .data (← filterEqual (comparison == .eq) l r right.literal?)
  | .hypothesis kind operands predictions => do
    let text := (Expression.hypothesis kind operands predictions).toText
    let some design := ctx.design | throw (.invalidDesign (.missing text))
    design.validate
    if operands.length < 2 then
      throw (.malformedRelation text .tooFewVariables)
    let bindings ← bindOperands d ctx text operands
    return .tested (← testBindings d (ctx.settings.forDesign design) ctx.declared design bindings
      predictions)
  | .mean operand => do
    let b ← (← evaluate d ctx operand).binding operand
    return .summary (← estimateMean (Expression.mean operand).toText ctx.settings b)
  | .median operand => .error (.medianUnavailable (Expression.median operand).toText)

/-- The bindings of the operands of a hypothesis, none of which may be a literal. -/
def bindOperands (d : Dataset α) (ctx : Context α) (text : String) :
    List (Expression α) → Except (AnalysisError α) (List (Binding α))
  | [] => .ok []
  | operand :: rest => do
    let b ← (← evaluate d ctx operand).binding operand
    if b.isLiteral then
      throw (.malformedRelation text (.literalVariable operand.toText))
    return b :: (← bindOperands d ctx text rest)

end

/-- The binding that an expression evaluates to. -/
def evaluateBinding (d : Dataset α) (ctx : Context α) (e : Expression α) :
    Except (AnalysisError α) (Binding α) := do
  (← evaluate d ctx e).binding e

end StudyAnalysis
