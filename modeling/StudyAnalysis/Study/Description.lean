/-
**Studies in documents.**

The settings, the variables, the design, the declared assumptions and the hypotheses of a study,
read from a document and written as one.

Main definitions:

* `StudyAnalysis.StatedHypothesis` — a hypothesis about named variables;
* `StudyAnalysis.Study` — everything that a study file states;
* `StudyAnalysis.Settings.ofDocument`, `StudyAnalysis.Design.ofDocument`,
  `StudyAnalysis.Variable.ofDocument`, `StudyAnalysis.Declared.ofDocument`,
  `StudyAnalysis.StatedHypothesis.ofDocument`, `StudyAnalysis.Study.ofDocument` — reading them;
* `StudyAnalysis.Settings.toDocument`, `StudyAnalysis.Design.toDocument`,
  `StudyAnalysis.Variable.toDocument`, `StudyAnalysis.StatedHypothesis.toDocument` — writing them.
-/

import StudyAnalysis.Assumption.Declared
import StudyAnalysis.Data.Variable
import StudyAnalysis.Document.Record
import StudyAnalysis.Hypothesis.Expression
import StudyAnalysis.Study.Settings

set_option autoImplicit false
set_option relaxedAutoImplicit false

namespace StudyAnalysis

variable {α : Type}

/-! ### Settings and design -/

/-- The settings of resampling in a document. -/
def BootstrapSettings.ofDocument (format : Format) : Value α → Described BootstrapSettings :=
  Value.toRecord format
    [⟨"enabled", false, fun v s => return { s with enabled := ← v.toFlag }⟩,
      ⟨"resamples", false, fun v s => return { s with resamples := ← v.toCount }⟩,
      ⟨"seed", false, fun v s => return { s with seed := ← v.toCount }⟩]
    .standard

/-- The settings in a document. -/
def Settings.ofDocument [Numeric α] (format : Format) : Value α → Described (Settings α) :=
  Value.toRecord format
    [⟨"mode", false, fun v s => return { s with mode := ← v.toWord format Mode.ofName? }⟩,
      ⟨"alpha", false, fun v s => return { s with alpha := ← v.toNumber }⟩,
      ⟨"large_sample_threshold", false,
        fun v s => return { s with largeSampleThreshold := ← v.toCount }⟩,
      ⟨"bootstrap", false,
        fun v s => return { s with bootstrap := ← BootstrapSettings.ofDocument format v }⟩]
    .standard

/-- The design in a document. -/
def Design.ofDocument [Numeric α] (format : Format) : Value α → Described (Design α) :=
  Value.toRecord format
    [⟨"study_type", false,
        fun v d => return { d with kind := ← v.toOptional (·.toWord format StudyKind.ofName?) }⟩,
      ⟨"independent_vars", false, fun v d => return { d with independent := ← v.toTexts }⟩,
      ⟨"dependent_vars", false, fun v d => return { d with dependent := ← v.toTexts }⟩,
      ⟨"contributor_vars", false, fun v d => return { d with contributors := ← v.toTexts }⟩,
      ⟨"outcome_vars", false, fun v d => return { d with outcomes := ← v.toTexts }⟩,
      ⟨"within_subjects", false, fun v d => return { d with withinSubjects := ← v.toTexts }⟩,
      ⟨"between_subjects", false, fun v d => return { d with betweenSubjects := ← v.toTexts }⟩,
      ⟨"alpha", false, fun v d => return { d with alpha := ← v.toOptional (·.toNumber) }⟩,
      ⟨"effect_size", false,
        fun v d => return { d with effectSizes := ← v.toList (·.toNumber) }⟩]
    .empty

/-- The settings as a document. -/
def Settings.toDocument (s : Settings α) : Value α :=
  .table [("mode", .text s.mode.name), ("alpha", .real s.alpha),
    ("large_sample_threshold", .int s.largeSampleThreshold),
    ("bootstrap", .table [("enabled", .bool s.bootstrap.enabled),
      ("resamples", .int s.bootstrap.resamples), ("seed", .int s.bootstrap.seed)])]

/-- The design as a document. -/
def Design.toDocument (d : Design α) : Value α :=
  .table [("study_type", .ofOptional (fun k => .text k.name) d.kind),
    ("independent_vars", .ofTexts d.independent), ("dependent_vars", .ofTexts d.dependent),
    ("contributor_vars", .ofTexts d.contributors), ("outcome_vars", .ofTexts d.outcomes),
    ("within_subjects", .ofTexts d.withinSubjects),
    ("between_subjects", .ofTexts d.betweenSubjects),
    ("alpha", .ofOptional .real d.alpha), ("effect_size", .list (d.effectSizes.map .real))]

/-! ### Variables and assumptions -/

/-- The variable in a document. -/
def Variable.ofDocument (format : Format) : Value α → Described Variable :=
  Value.toRecord format
    [⟨"name", true, fun v x => return { x with name := ← v.toText }⟩,
      ⟨"data_type", true, fun v x => return { x with scale := ← v.toWord format Scale.ofName? }⟩,
      ⟨"categories", false,
        fun v x => return { x with categories := ← v.toOptional (·.toTexts) }⟩]
    ⟨"", .nominal, none⟩

/-- The variable as a document. -/
def Variable.toDocument (v : Variable) : Value α :=
  .table <| [("name", .text v.name), ("data_type", .text v.scale.name)]
    ++ (v.categories.map fun labels => ("categories", .ofTexts labels)).toList

/-- Declared assumptions by their names. -/
structure DeclaredNames where
  global : List String
  perVariable : NameMap (List String)

/-- A set of assumptions by their names. -/
def AssumptionSet.described (names : List String) : Described AssumptionSet :=
  (AssumptionSet.parse names).mapError .unknownAssumption

/-- The assumptions that the names stand for.  Those of the variables are looked up first, in the
order of the variables. -/
def DeclaredNames.declared (names : DeclaredNames) : Described Declared := do
  let perVariable ← names.perVariable.entries.mapM fun entry =>
    return (entry.1, ← AssumptionSet.described entry.2)
  return ⟨← AssumptionSet.described names.global, ⟨perVariable⟩⟩

/-- The names of declared assumptions in a document. -/
def DeclaredNames.ofDocument (format : Format) : Value α → Described DeclaredNames :=
  Value.toRecord format
    [⟨"global", false, fun v n => return { n with global := ← v.toTexts }⟩,
      ⟨"variables", false,
        fun v n => return { n with perVariable := .ofList (← v.toEntries (·.toTexts)) }⟩]
    ⟨[], ∅⟩

/-- The declared assumptions in a document. -/
def Declared.ofDocument (format : Format) (v : Value α) : Described Declared := do
  (← DeclaredNames.ofDocument format v).declared

/-! ### Hypotheses -/

/-- A hypothesis about named variables. -/
structure StatedHypothesis where
  kind : HypothesisKind
  names : List String
  predictions : List Prediction

/-- The expression of a hypothesis. -/
def StatedHypothesis.toExpression (h : StatedHypothesis) : Expression α :=
  .hypothesis h.kind (h.names.map .column) h.predictions

/-- The prediction of a text in a document. -/
def Prediction.ofDocument (v : Value α) : Described Prediction := do
  let cs := Text.trimmed (← v.toText).toList
  match Prediction.ofChars? cs with
  | some p => return p
  | none => throw (.unknownPrediction (String.ofList cs))

/-- The hypothesis in a document. -/
def StatedHypothesis.ofDocument (format : Format) : Value α → Described StatedHypothesis :=
  Value.toRecord format
    [⟨"kind", true, fun v h => return { h with kind := ← v.toWord format HypothesisKind.ofName? }⟩,
      ⟨"variables", true, fun v h => return { h with names := ← v.toTexts }⟩,
      ⟨"predictions", false,
        fun v h => return { h with predictions := ← v.toList Prediction.ofDocument }⟩]
    ⟨.compare, [], []⟩

/-- The hypothesis as a document. -/
def StatedHypothesis.toDocument (h : StatedHypothesis) : Value α :=
  .table [("kind", .text h.kind.name), ("variables", .ofTexts h.names),
    ("predictions", .ofTexts (h.predictions.map Prediction.toText))]

/-! ### Studies -/

/-- Everything that a study file states. -/
structure Study (α : Type) where
  /-- The path of the data file, if it is stated. -/
  data : Option String
  /-- The name of the field that identifies participants. -/
  key : Option String
  settings : Settings α
  vars : List Variable
  design : Design α
  declared : Declared
  hypotheses : List StatedHypothesis

/-- The study in a document. -/
def Study.ofDocument [Numeric α] (format : Format) : Value α → Described (Study α) :=
  Value.toRecord format
    [⟨"data", false, fun v s => return { s with data := ← v.toOptional (·.toText) }⟩,
      ⟨"key", false, fun v s => return { s with key := ← v.toOptional (·.toText) }⟩,
      ⟨"engine", false, fun v s => return { s with settings := ← Settings.ofDocument format v }⟩,
      ⟨"variables", true,
        fun v s => return { s with vars := ← v.toList (Variable.ofDocument format) }⟩,
      ⟨"design", true, fun v s => return { s with design := ← Design.ofDocument format v }⟩,
      ⟨"assumptions", false,
        fun v s => return { s with declared := ← Declared.ofDocument format v }⟩,
      ⟨"hypotheses", false,
        fun v s => return { s with hypotheses := ← v.toList (StatedHypothesis.ofDocument format) }⟩]
    ⟨none, none, .standard, [], .empty, .nothing, []⟩

end StudyAnalysis
