/-
**Settings of an analysis.**

Main definitions:

* `StudyAnalysis.Mode` — what happens to declarations that the data contradict;
* `StudyAnalysis.Settings` — the settings;
* `StudyAnalysis.Settings.validate` — whether they can be used;
* `StudyAnalysis.Settings.forDesign` — the settings under the threshold of a design.
-/

import StudyAnalysis.Study.Design

set_option autoImplicit false
set_option relaxedAutoImplicit false

namespace StudyAnalysis

/-- What happens to declarations that the data contradict. -/
inductive Mode
  /-- They are overridden. -/
  | strict
  /-- They are honoured with a warning. -/
  | relaxed
  deriving DecidableEq

namespace Mode

/-- The word for the mode. -/
def name : Mode → String
  | strict => "strict"
  | relaxed => "relaxed"

/-- The mode that a word stands for. -/
def ofName? (word : String) : Option Mode :=
  [strict, relaxed].find? fun m => m.name == word

end Mode

/-- The settings of resampling. -/
structure BootstrapSettings where
  enabled : Bool
  resamples : Nat
  seed : Nat
  deriving DecidableEq

/-- A thousand resamples from the seed zero. -/
def BootstrapSettings.standard : BootstrapSettings :=
  ⟨true, 1000, 0⟩

/-- The settings of an analysis. -/
structure Settings (α : Type) where
  mode : Mode
  /-- The significance threshold of hypothesis tests and of the checks of assumptions. -/
  alpha : α
  /-- The least size of the smallest sample of a comparison that counts as large. -/
  largeSampleThreshold : Nat
  bootstrap : BootstrapSettings

namespace Settings

variable {α : Type} [Numeric α]

/-- The settings that hold where none are given. -/
def standard : Settings α :=
  ⟨.strict, 5 / 100, 30, .standard⟩

/-- The standard settings with contradicted declarations honoured. -/
def relaxed : Settings α :=
  { (standard : Settings α) with mode := .relaxed }

/-- The settings with another significance threshold. -/
def withAlpha (s : Settings α) (alpha : α) : Settings α :=
  { s with alpha }

/-- The settings with another seed. -/
def withSeed (s : Settings α) (seed : Nat) : Settings α :=
  { s with bootstrap := { s.bootstrap with seed } }

/-- The settings without the resampling fallback. -/
def withoutBootstrap (s : Settings α) : Settings α :=
  { s with bootstrap := { s.bootstrap with enabled := false } }

/-- Fails unless the settings can be used. -/
def validate (s : Settings α) : Except (AnalysisError α) Unit :=
  if !isThreshold s.alpha then .error (.invalidConfig (.alphaOutOfRange s.alpha))
  else if s.largeSampleThreshold = 0 then .error (.invalidConfig .noLargeSample)
  else if s.bootstrap.resamples = 0 then .error (.invalidConfig .noResamples)
  else .ok ()

/-- The settings under the significance threshold of a design, if it has one. -/
def forDesign (s : Settings α) (d : Design α) : Settings α :=
  match d.alpha with
  | some alpha => s.withAlpha alpha
  | none => s

end Settings

end StudyAnalysis
