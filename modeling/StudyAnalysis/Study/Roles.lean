/-
**Kinds of studies and roles of variables.**

Main definitions:

* `StudyAnalysis.StudyKind` — experiments and observational studies;
* `StudyAnalysis.Role` — what a variable is in a study.
-/

set_option autoImplicit false
set_option relaxedAutoImplicit false

namespace StudyAnalysis

/-- The kind of a study. -/
inductive StudyKind
  | experiment
  | observational
  deriving DecidableEq

/-- The word for the kind of a study. -/
def StudyKind.name : StudyKind → String
  | experiment => "experiment"
  | observational => "observational"

/-- The kind of study that a word stands for. -/
def StudyKind.ofName? (word : String) : Option StudyKind :=
  [experiment, observational].find? fun k => k.name == word

/-- What a variable is in a study. -/
inductive Role
  /-- Set by an experiment. -/
  | independent
  /-- Measured by an experiment. -/
  | dependent
  /-- Held to explain an observation. -/
  | contributor
  /-- Held to be explained. -/
  | outcome
  /-- Without a role in the study. -/
  | null
  deriving DecidableEq

namespace Role

/-- Whether the variable explains others. -/
def isExplanatory : Role → Bool
  | independent | contributor => true
  | dependent | outcome | null => false

/-- Whether the variable is explained by others. -/
def isResponse : Role → Bool
  | dependent | outcome => true
  | independent | contributor | null => false

/-- The word for the role. -/
def name : Role → String
  | independent => "independent"
  | dependent => "dependent"
  | contributor => "contributor"
  | outcome => "outcome"
  | null => "null"

end Role

end StudyAnalysis
