/-
**Study designs.**

A design lists the variables that explain and those that are explained, and tells for each factor
whether it varies within or between subjects.

Main definitions:

* `StudyAnalysis.Design` — the lists of a design;
* `StudyAnalysis.Design.resolve` — the kind of study that a design describes;
* `StudyAnalysis.Design.validate` — whether a design is consistent;
* `StudyAnalysis.Design.roleOf` — the role of a variable.
-/

import StudyAnalysis.Failure

set_option autoImplicit false
set_option relaxedAutoImplicit false

namespace StudyAnalysis

/-- The design of a study. -/
structure Design (α : Type) where
  /-- The kind of study, if it is stated. -/
  kind : Option StudyKind
  independent : List String
  dependent : List String
  contributors : List String
  outcomes : List String
  withinSubjects : List String
  betweenSubjects : List String
  /-- A significance threshold in place of the one of the settings. -/
  alpha : Option α
  /-- Effect sizes of interest. -/
  effectSizes : List α

/-- Whether a threshold lies strictly between zero and one. -/
def isThreshold {α : Type} [Numeric α] (x : α) : Bool :=
  0 < x && x < 1

namespace Design

variable {α : Type}

/-- The design that states nothing. -/
def empty : Design α :=
  ⟨none, [], [], [], [], [], [], none, []⟩

/-- The design of an experiment. -/
def experiment (independent dependent : List String) : Design α :=
  { (empty : Design α) with kind := some .experiment, independent, dependent }

/-- The design of an observational study. -/
def observational (contributors outcomes : List String) : Design α :=
  { (empty : Design α) with kind := some .observational, contributors, outcomes }

/-- The design with its list of factors within subjects replaced. -/
def withWithinSubjects (d : Design α) (names : List String) : Design α :=
  { d with withinSubjects := names }

/-- The design with its list of factors between subjects replaced. -/
def withBetweenSubjects (d : Design α) (names : List String) : Design α :=
  { d with betweenSubjects := names }

/-- The design with a significance threshold of its own. -/
def withAlpha (d : Design α) (alpha : α) : Design α :=
  { d with alpha := some alpha }

/-- The variables that explain in a study of the given kind. -/
def explanatory (d : Design α) : StudyKind → List String
  | .experiment => d.independent
  | .observational => d.contributors

/-- The variables that are explained in a study of the given kind. -/
def responses (d : Design α) : StudyKind → List String
  | .experiment => d.dependent
  | .observational => d.outcomes

/-- Whether both lists of variables of a kind of study have members. -/
def declares (d : Design α) (kind : StudyKind) : Bool :=
  !(d.explanatory kind).isEmpty && !(d.responses kind).isEmpty

/-- The kind of study that a design describes: the stated one, which must have its variables
declared, or the first one that has them. -/
def resolve (d : Design α) : Except (AnalysisError α) StudyKind :=
  match d.kind with
  | some kind =>
    if d.declares kind then .ok kind else .error (.invalidDesign (.undeclaredRoles kind))
  | none =>
    if d.declares .experiment then .ok .experiment
    else if d.declares .observational then .ok .observational
    else .error (.invalidDesign .noRoles)

/-- Fails unless the design is consistent. -/
def validate [Numeric α] (d : Design α) : Except (AnalysisError α) Unit := do
  let _ ← d.resolve
  if let some name := d.betweenSubjects.find? d.withinSubjects.contains then
    throw (.invalidDesign (.withinAndBetween name))
  if let some alpha := d.alpha then
    if !isThreshold alpha then
      throw (.invalidDesign (.alphaOutOfRange alpha))
  if let some size := d.effectSizes.find? fun x => !(Numeric.isFinite x && 0 < x) then
    throw (.invalidDesign (.effectSizeNotPositive size))

/-- The roles of the explaining and of the explained variables of a kind of study. -/
def rolesOf : StudyKind → Role × Role
  | .experiment => (.independent, .dependent)
  | .observational => (.contributor, .outcome)

/-- The role of a variable in a study of the given kind; a variable in both lists explains. -/
def roleOf (d : Design α) (kind : StudyKind) (name : String) : Role :=
  if (d.explanatory kind).contains name then (rolesOf kind).1
  else if (d.responses kind).contains name then (rolesOf kind).2
  else .null

/-- Whether a factor varies within subjects. -/
def isWithinSubjects (d : Design α) (name : String) : Bool :=
  d.withinSubjects.contains name

end Design

end StudyAnalysis
