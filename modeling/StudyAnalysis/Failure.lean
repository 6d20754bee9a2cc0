/-
**Why an analysis fails.**

Every failure is a cause with the parts that the message names; the wording is in one place.

Main definitions:

* `StudyAnalysis.Malformation`, `StudyAnalysis.Mismatch`, `StudyAnalysis.DesignFault`,
  `StudyAnalysis.ConfigFault`, `StudyAnalysis.FileFault`, `StudyAnalysis.DescriptionFault` — the
  causes of some failures in detail;
* `StudyAnalysis.AnalysisError` — the failures;
* `StudyAnalysis.AnalysisError.message` — their wording.
-/

import StudyAnalysis.Data.Cell
import StudyAnalysis.Data.Comparison
import StudyAnalysis.Data.Scale
import StudyAnalysis.Statistics.Outcome
import StudyAnalysis.Study.Roles
import StudyAnalysis.Text.Quoted

set_option autoImplicit false
set_option relaxedAutoImplicit false

namespace StudyAnalysis

/-! ### Causes in detail -/

/-- What is wrong with the form of an expression. -/
inductive Malformation
  /-- A prediction is neither an order of two groups nor a direction. -/
  | unknownPrediction
  /-- An operand is a summary or a hypothesis. -/
  | operandWithoutData
  /-- An ordered comparison has something else than a literal on its right. -/
  | comparandNotLiteral
  /-- An ordered comparison has a literal on its left. -/
  | literalCompared
  /-- The mean of a literal is asked for. -/
  | literalAveraged
  /-- A hypothesis has fewer than two variables. -/
  | tooFewVariables
  /-- A variable of a hypothesis is a literal. -/
  | literalVariable (expression : String)
  /-- A session is given something else than a hypothesis. -/
  | notHypothesis
  deriving DecidableEq

/-- The fault of the form in words. -/
def Malformation.message : Malformation → String
  | unknownPrediction => "prediction must be `a > b`, `a < b`, `positive` or `negative`"
  | operandWithoutData => "operand must be a variable, literal or filter"
  | comparandNotLiteral => "right-hand side of an ordered comparison must be a literal"
  | literalCompared => "left-hand side of an ordered comparison must be a variable"
  | literalAveraged => "mean of a literal"
  | tooFewVariables => "a relationship needs at least two variables"
  | literalVariable expression => "'" ++ expression ++ "' is a literal, not a variable"
  | notHypothesis => "a hypothesis must be a compare or relate expression"

/-- How a value differs from what is expected of it. -/
inductive Mismatch (α : Type)
  /-- A column is not as long as the first one. -/
  | rowCount (expected actual : Nat)
  /-- A cell of a categorical variable, or what it is compared with, is not a text. -/
  | notLabel (scale : Scale) (cell : Cell α)
  /-- A cell of a numeric variable is not a finite number. -/
  | notFinite (scale : Scale) (cell : Cell α)
  /-- What a numeric variable is compared with is not a number. -/
  | notNumber (scale : Scale) (cell : Cell α)
  /-- What an ordinal variable is ordered against is neither a label nor a rank. -/
  | notRank (cell : Cell α)
  /-- A field of a data file is neither a number nor a text. -/
  | notCell (document : String)

variable {α : Type}

/-- What is expected. -/
def Mismatch.expected : Mismatch α → String
  | rowCount expected _ => toString expected ++ " rows"
  | notLabel scale _ => "category label for " ++ scale.name ++ " scale"
  | notFinite scale _ => "finite number for " ++ scale.name ++ " scale"
  | notNumber scale _ => "numeric comparand for " ++ scale.name ++ " scale"
  | notRank _ => "category label or integer rank"
  | notCell _ => "number or string"

/-- What is there. -/
def Mismatch.actual [NumberText α] : Mismatch α → String
  | rowCount _ actual => toString actual ++ " rows"
  | notLabel _ cell => cell.describe
  | notFinite _ cell => cell.describe
  | notNumber _ cell => cell.describe
  | notRank cell => cell.describe
  | notCell document => document

/-- What is wrong with the design of a study. -/
inductive DesignFault (α : Type)
  /-- A study of the stated kind lacks one of its two lists of variables. -/
  | undeclaredRoles (kind : StudyKind)
  /-- No kind of study has both of its lists of variables. -/
  | noRoles
  /-- A variable is both within and between subjects. -/
  | withinAndBetween (name : String)
  /-- The significance threshold is not inside of the unit interval. -/
  | alphaOutOfRange (alpha : α)
  /-- An effect size of interest is not positive and finite. -/
  | effectSizeNotPositive (size : α)
  /-- A hypothesis is evaluated without a design. -/
  | missing (expression : String)
  /-- No variable of a hypothesis explains another one. -/
  | noPair (names : List String)
  /-- The groups of a factor within subjects cannot be aligned by position. -/
  | unequalGroups (factor : String) (sizes : List Nat)

/-- The fault of the design in words. -/
def DesignFault.message [NumberText α] : DesignFault α → String
  | undeclaredRoles .experiment =>
    "experiment study does not declare its independent and dependent variables"
  | undeclaredRoles .observational =>
    "observational study does not declare its contributor and outcome variables"
  | noRoles =>
    "design declares neither independent/dependent nor contributor/outcome variables"
  | withinAndBetween name =>
    "'" ++ name ++ "' cannot be both a between-subjects and a within-subjects variable"
  | alphaOutOfRange alpha => "alpha must be in (0, 1), got " ++ NumberText.shortest alpha
  | effectSizeNotPositive size =>
    "effect sizes must be positive, got " ++ NumberText.shortest size
  | missing expression => "'" ++ expression ++ "' needs a study design"
  | noPair names => "no explanatory/response pair among " ++ Text.quotedList names
  | unequalGroups factor sizes =>
    "within-subjects factor '" ++ factor ++ "' has unequal group sizes "
      ++ Text.bracketed (sizes.map toString) ++ " and the dataset names no participant key"

/-- What is wrong with settings, variables or declarations. -/
inductive ConfigFault (α : Type)
  /-- A name is not one of an assumption. -/
  | unknownAssumption (name : String)
  /-- The significance threshold is not inside of the unit interval. -/
  | alphaOutOfRange (alpha : α)
  /-- Every sample would count as large. -/
  | noLargeSample
  /-- The bootstrap would not resample. -/
  | noResamples
  /-- A categorical variable has no categories. -/
  | noCategories (name : String) (scale : Scale)
  /-- Neither the study nor the command line names a data file. -/
  | noDataFile

/-- The fault of the configuration in words. -/
def ConfigFault.message [NumberText α] : ConfigFault α → String
  | unknownAssumption name => "unknown assumption '" ++ name ++ "'"
  | alphaOutOfRange alpha => "alpha must be in (0, 1), got " ++ NumberText.shortest alpha
  | noLargeSample => "large_sample_threshold must be at least 1"
  | noResamples => "bootstrap.resamples must be at least 1"
  | noCategories name scale =>
    "variable '" ++ name ++ "' is " ++ scale.name ++ " but declares no categories"
  | noDataFile => "study file names no data file and none was given"

/-- Why a file cannot be read. -/
inductive FileFault
  | notFound
  /-- A file stands where the path goes on. -/
  | notDirectory
  | isDirectory
  /-- The path or a name in it is longer than the file system allows. -/
  | nameTooLong
  /-- The path contains the character that ends a path. -/
  | nulInName
  | notText
  /-- Any other reason, in the words of the operating system. -/
  | other (reason : String)
  deriving DecidableEq

/-- The reason in words. -/
def FileFault.message : FileFault → String
  | notFound => "No such file or directory (os error 2)"
  | notDirectory => "Not a directory (os error 20)"
  | isDirectory => "Is a directory (os error 21)"
  | nameTooLong => "File name too long (os error 36)"
  | nulInName => "file name contained an unexpected NUL byte"
  | notText => "stream did not contain valid UTF-8"
  | other reason => reason

/-- Why a text does not describe a study. -/
inductive DescriptionFault
  /-- It is not well-formed. -/
  | notWellFormed
  /-- A value has the wrong form, or a required one is missing. -/
  | misshapen
  | unknownAssumption (name : String)
  | unknownPrediction (text : String)
  deriving DecidableEq

/-! ### Failures -/

/-- Why an analysis fails. -/
inductive AnalysisError (α : Type)
  | unknownVariable (name : String)
  | malformedRelation (expression : String) (fault : Malformation)
  | unsupportedComparison (name : String) (comparison : Comparison) (scale : Scale)
  | typeMismatch (name : String) (mismatch : Mismatch α)
  /-- The mean of a variable whose values are not numbers. -/
  | meanUnsupported (name : String) (scale : Scale)
  /-- A literal is used as a variable of a comparison. -/
  | literalUnsupported
  | invalidDesign (fault : DesignFault α)
  | unknownCategory (name category : String)
  | missingValue (name : String) (row : Nat)
  /-- No test has its assumptions satisfied and the bootstrap is disabled. -/
  | noCandidateTest (names : List String)
  /-- The selected test cannot be run on the samples. -/
  | testFailed (method : TestMethod) (cause : SampleError)
  /-- The mean of a selection cannot be estimated. -/
  | meanFailed (cause : SampleError)
  | medianUnavailable (expression : String)
  | alreadyAdjusted (method : TestMethod)
  | invalidConfig (fault : ConfigFault α)
  | unreadableFile (fault : FileFault)
  /-- A study file does not describe a study. -/
  | invalidStudyFile (fault : DescriptionFault)
  /-- A data file is not a list of records. -/
  | invalidDataFile

/-- The fault of the description in words. -/
def DescriptionFault.message : DescriptionFault → String
  | notWellFormed => "the study file is not well-formed"
  | misshapen => "the study file lacks a field or has one of the wrong form"
  | unknownAssumption name => "invalid configuration: unknown assumption '" ++ name ++ "'"
  | unknownPrediction text =>
    "malformed relation in '" ++ text ++ "': " ++ Malformation.unknownPrediction.message

/-- The failure in words. -/
def AnalysisError.message [NumberText α] : AnalysisError α → String
  | unknownVariable name => "unknown variable '" ++ name ++ "'"
  | malformedRelation expression fault =>
    "malformed relation in '" ++ expression ++ "': " ++ fault.message
  | unsupportedComparison name comparison scale =>
    "cannot apply '" ++ comparison.symbol ++ "' to variable '" ++ name ++ "' with " ++ scale.name
      ++ " scale"
  | typeMismatch name mismatch =>
    "type mismatch on '" ++ name ++ "': expected " ++ mismatch.expected ++ ", got "
      ++ mismatch.actual
  | meanUnsupported name scale =>
    "unsupported data type for '" ++ name ++ "': " ++ scale.name
      ++ " (mean needs interval or ratio)"
  | literalUnsupported =>
    "unsupported data type for '<literal>': constant without a measurement scale"
  | invalidDesign fault => "invalid study design: " ++ fault.message
  | unknownCategory name category =>
    "'" ++ category ++ "' is not a declared category of '" ++ name ++ "'"
  | missingValue name row => "missing value for '" ++ name ++ "' at row " ++ toString row
  | noCandidateTest names =>
    "no candidate test satisfies the assumptions for " ++ Text.quotedList names
  | testFailed method cause => method.name ++ " failed: " ++ cause.message
  | meanFailed cause => "mean failed: " ++ cause.message
  | medianUnavailable expression => "aggregate '" ++ expression ++ "' is not implemented"
  | alreadyAdjusted method => "p-value of " ++ method.name ++ " has already been adjusted"
  | invalidConfig fault => "invalid configuration: " ++ fault.message
  | unreadableFile fault => fault.message
  | invalidStudyFile fault => fault.message
  | invalidDataFile => "the data file is not a list of records"

end StudyAnalysis
