/-
**Study files and data files.**

A study file is a TOML document; a data file is a JSON list of records.

Main definitions:

* `StudyAnalysis.Study.parse` — the study of a study file;
* `StudyAnalysis.Study.dataset` — the dataset of a data file;
* `StudyAnalysis.Study.dataPath` — where a data file is looked for;
* `StudyAnalysis.Study.results` — the results of all hypotheses of a study.
-/

import StudyAnalysis.Document.Json
import StudyAnalysis.Document.Toml
import StudyAnalysis.Hypothesis.Session
import StudyAnalysis.Number.Double
import StudyAnalysis.Study.Description
import StudyAnalysis.Study.Path

set_option autoImplicit false
set_option relaxedAutoImplicit false

namespace StudyAnalysis

/-! ### Files -/

namespace Study

/-- The study of a study file.  Its settings are checked before its design. -/
def parse (text : String) : Except (AnalysisError Float) (Study Float) := do
  let some document := Toml.parse? text | throw (.invalidStudyFile .notWellFormed)
  let study ← (Study.ofDocument .toml document).mapError .invalidStudyFile
  study.settings.validate
  study.design.validate
  return study

/-- The records of a data file. -/
def records (text : String) : Except (AnalysisError Float) (List (Value Float)) :=
  match Json.parse? text with
  | some (.list records) =>
    if records.all Value.isTable then .ok records else .error .invalidDataFile
  | _ => .error .invalidDataFile

/-- The dataset of a data file. -/
def dataset (study : Study Float) (text : String) :
    Except (AnalysisError Float) (Dataset Float) := do
  Dataset.ofRecords study.vars (← records text) study.key

/-- The path of the data file: the one that is given, or the one that the study states, which starts
in the directory of the study file. -/
def dataPath (study : Study Float) (directory : String) (given : Option String) :
    Except (AnalysisError Float) String :=
  match given, study.data with
  | some path, _ => .ok path
  | none, some path => .ok (Path.join directory path)
  | none, none => .error (.invalidConfig .noDataFile)

/-! ### Running a study -/

/-- The session after the hypotheses of the study, the first failure of which ends it. -/
def addHypotheses (study : Study Float) (d : Dataset Float) (s : Session Float) :
    Except (AnalysisError Float) (Session Float) :=
  study.hypotheses.foldlM
    (fun s h =>
      match s.hypothesize d h.toExpression study.design study.declared with
      | (.ok _, s) => .ok s
      | (.error fault, _) => .error fault)
    s

/-- The corrected results of all hypotheses of the study under the given settings. -/
def results (study : Study Float) (settings : Settings Float) (d : Dataset Float) :
    Except (AnalysisError Float) (List (TestResult Float)) := do
  (← study.addHypotheses d (← Session.start settings)).finish

end Study

end StudyAnalysis
