/-
**Running a command line.**

The study file and the data file are read through a function that is given, so that a run is a
function of the words and of the contents of the files.

Main definitions:

* `StudyAnalysis.CommandLine.resultText` — a result as a paragraph;
* `StudyAnalysis.CommandLine.Outcome` — how a run ends, with its exit code and its two outputs;
* `StudyAnalysis.CommandLine.run` — the outcome of the words of a command line.
-/

import StudyAnalysis.CommandLine.Arguments
import StudyAnalysis.Study.File

set_option autoImplicit false
set_option relaxedAutoImplicit false

namespace StudyAnalysis.CommandLine

/-! ### Results -/

/-- The lines on a result, which has a number. -/
def resultLines (number : Nat) (r : TestResult Float) : List String :=
  let verdict := if r.isSignificant then "significant" else "not significant"
  ["#" ++ toString number ++ " " ++ r.method.name ++ " [" ++ verdict ++ "]",
    "  variables: " ++ ", ".intercalate r.names,
    "  statistic: " ++ r.statisticText,
    "  p-value:   " ++ r.pValueText]
  ++ (r.adjusted.map fun p => "  adjusted:  " ++ NumberText.fixed 6 p).toList
  ++ r.effectLines
  ++ r.assumptions.map ("  " ++ ·)
  ++ r.warnings.map ("  warning: " ++ ·)
  ++ [""]

/-- Lines as a text. -/
def unlines (lines : List String) : String :=
  String.join (lines.map (· ++ "\n"))

/-- The heading that tells the settings. -/
def headingLines (s : Settings Float) : List String :=
  ["Tea (" ++ s.mode.name ++ " mode, alpha = " ++ NumberText.shortest s.alpha ++ ")", ""]

/-- The results as paragraphs under a heading, numbered from one. -/
def resultsText (s : Settings Float) (results : List (TestResult Float)) : String :=
  unlines (headingLines s ++ (results.zipIdx 1).flatMap fun (r, number) => resultLines number r)

/-- The results as a document. -/
def resultsDocument (results : List (TestResult Float)) : String :=
  Json.pretty (.list (results.map TestResult.toDocument)) ++ "\n"

/-! ### Help -/

/-- The first lines of the help, up to the description of the study file. -/
def helpHead : List String :=
  ["Select and run the statistical test your hypothesis and data support", "",
    "Usage: tea [OPTIONS] <STUDY>", "", "Arguments:"]

/-- The help with one line for an argument. -/
def shortHelp : String :=
  unlines <| helpHead ++
    ["  <STUDY>  Study file (TOML) declaring variables, design, assumptions and hypotheses", "",
      "Options:",
      "      --data <DATA>    Data file (JSON array of row objects); overrides the study's "
        ++ "\x60data\x60 entry",
      "      --mode <MODE>    Conflict policy between declared assumptions and the data: strict "
        ++ "or relaxed [possible values: strict, relaxed]",
      "      --alpha <ALPHA>  Significance threshold; overrides the study's engine alpha",
      "      --seed <SEED>    Seed for the bootstrap fallback and confidence intervals",
      "      --json           Print results as JSON instead of colored reports",
      "  -h, --help           Print help (see more with '--help')",
      "  -V, --version        Print version"]

/-- The help with a paragraph for an argument. -/
def longHelp : String :=
  unlines <| helpHead ++
    ["  <STUDY>",
      "          Study file (TOML) declaring variables, design, assumptions and hypotheses", "",
      "Options:",
      "      --data <DATA>",
      "          Data file (JSON array of row objects); overrides the study's \x60data\x60 entry",
      "",
      "      --mode <MODE>",
      "          Conflict policy between declared assumptions and the data: strict or relaxed",
      "",
      "          Possible values:",
      "          - strict:  Evidence wins over a contradicting declaration",
      "          - relaxed: A contradicting declaration is honoured with a recorded warning",
      "",
      "      --alpha <ALPHA>",
      "          Significance threshold; overrides the study's engine alpha", "",
      "      --seed <SEED>",
      "          Seed for the bootstrap fallback and confidence intervals", "",
      "      --json",
      "          Print results as JSON instead of colored reports", "",
      "  -h, --help",
      "          Print help (see a summary with '-h')", "",
      "  -V, --version",
      "          Print version"]

/-! ### Outcomes -/

/-- How a run ends. -/
inductive Outcome
  /-- The results are printed. -/
  | printed (text : String)
  /-- The study cannot be carried out. -/
  | failed (error : AnalysisError Float)
  /-- The words are not taken to their end. -/
  | interrupted (cause : Interruption)

/-- What is wrong with a command line, in words. -/
def misuseText : Misuse → String
  | .missingStudy => "error: the study file is missing"
  | .badValue => "error: a value is missing or not allowed"
  | .badNumber => "error: a value is not a number of the right kind"
  | .unknownWord => "error: an argument is unknown"
  | .repeatedOption => "error: an option is given twice"
  | .unexpectedValue => "error: an option takes no value"

namespace Outcome

/-- The exit code of the run. -/
def exitCode : Outcome → Nat
  | printed _ => 0
  | failed _ => 1
  | interrupted (.misuse _) => 2
  | interrupted _ => 0

/-- What the run prints. -/
def output : Outcome → String
  | printed text => text
  | interrupted (.help long) => if long then longHelp else shortHelp
  | interrupted .version => "tea 0.4.0\n"
  | _ => ""

/-- What the run reports as an error. -/
def errors : Outcome → String
  | failed error => "error: " ++ error.message ++ "\n"
  | interrupted (.misuse fault) => misuseText fault ++ "\n"
  | _ => ""

end Outcome

/-! ### Runs -/

section Run

variable {m : Type → Type} [Monad m]

/-- The content of a file, or the failure to read it. -/
def load (readFile : String → m (Except FileFault String)) (path : String) :
    ExceptT (AnalysisError Float) m String := do
  match ← readFile path with
  | .ok text => return text
  | .error fault => throw (.unreadableFile fault)

/-- The text that a study prints.  The study file is read before the data file, and the settings
with those of the command line are only checked after both. -/
def study (readFile : String → m (Except FileFault String)) (a : Arguments) :
    ExceptT (AnalysisError Float) m String := do
  let study ← ExceptT.mk (pure (Study.parse (← load readFile a.study)))
  let settings := a.override study.settings
  let path ← ExceptT.mk (pure (study.dataPath (Path.parent a.study) a.data))
  let d ← ExceptT.mk (pure (study.dataset (← load readFile path)))
  let results ← ExceptT.mk (pure (study.results settings d))
  return if a.json then resultsDocument results else resultsText settings results

/-- The outcome of the words of a command line. -/
def run (readFile : String → m (Except FileFault String)) (words : List String) : m Outcome := do
  match Arguments.parse words with
  | .error cause => return .interrupted cause
  | .ok a =>
    match ← (study readFile a).run with
    | .ok text => return .printed text
    | .error error => return .failed error

end Run

end StudyAnalysis.CommandLine
