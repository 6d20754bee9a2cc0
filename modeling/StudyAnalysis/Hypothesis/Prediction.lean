/-
**Predictions.**

A prediction says which of two groups has the larger outcome, or whether two variables grow
together.

Main definitions:

* `StudyAnalysis.Prediction` — the three kinds of predictions;
* `StudyAnalysis.Prediction.toText`, `StudyAnalysis.Prediction.ofChars?` — writing and reading them.
-/

import StudyAnalysis.Failure
import StudyAnalysis.Text.Blank
import StudyAnalysis.Text.LetterCase

set_option autoImplicit false
set_option relaxedAutoImplicit false

namespace StudyAnalysis

/-- The direction that a hypothesis expects. -/
inductive Prediction
  /-- The first group has the larger outcome. -/
  | groupOrder (greater lesser : String)
  /-- The variables grow together. -/
  | positive
  /-- One variable falls as the other one grows. -/
  | negative
  deriving DecidableEq

namespace Prediction

/-- The text of a prediction. -/
def toText : Prediction → String
  | groupOrder greater lesser => greater ++ " > " ++ lesser
  | positive => "positive"
  | negative => "negative"

/-- The two parts of a text around the first place of a character. -/
def splitAt? (mark : Char) (cs : List Char) : Option (List Char × List Char) :=
  match cs.span (· != mark) with
  | (left, _ :: right) => some (left, right)
  | (_, []) => none

/-- The order of two named groups, unless a name is blank. -/
def ofGroups? (greater lesser : List Char) : Option Prediction :=
  let greater := Text.trimmed greater
  let lesser := Text.trimmed lesser
  if greater.isEmpty || lesser.isEmpty then none
  else some (groupOrder (String.ofList greater) (String.ofList lesser))

/-- The prediction of a text without blanks around it: a direction in any case or by its sign, or
two groups around the first `>` or, without one, the first `<`. -/
def ofChars? (cs : List Char) : Option Prediction :=
  let word := String.ofList (Text.toSmall cs)
  if word = "positive" || word = "+" then some positive
  else if word = "negative" || word = "-" then some negative
  else
    match splitAt? '>' cs with
    | some (left, right) => ofGroups? left right
    | none =>
      match splitAt? '<' cs with
      | some (left, right) => ofGroups? right left
      | none => none

/-- The prediction of a text. -/
def parse {α : Type} (s : String) : Except (AnalysisError α) Prediction :=
  let cs := Text.trimmed s.toList
  match ofChars? cs with
  | some p => .ok p
  | none => .error (.malformedRelation (String.ofList cs) .unknownPrediction)

end Prediction

end StudyAnalysis
