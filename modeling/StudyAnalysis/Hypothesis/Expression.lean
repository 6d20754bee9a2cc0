/-
**Expressions.**

An expression selects cells of a dataset, summarises such a selection, or states a hypothesis about
several of them.

Main definitions:

* `StudyAnalysis.Expression` — the expressions;
* `StudyAnalysis.Expression.toText` — their text.
-/

import StudyAnalysis.Hypothesis.Prediction

set_option autoImplicit false
set_option relaxedAutoImplicit false

namespace StudyAnalysis

/-- How a hypothesis relates its variables. -/
inductive HypothesisKind
  /-- An outcome differs between the groups of a factor. -/
  | compare
  /-- Variables are related in some way. -/
  | relate
  deriving DecidableEq

/-- The word for the kind of a hypothesis. -/
def HypothesisKind.name : HypothesisKind → String
  | compare => "compare"
  | relate => "relate"

/-- The kind of hypothesis that a word stands for. -/
def HypothesisKind.ofName? (word : String) : Option HypothesisKind :=
  [compare, relate].find? fun k => k.name == word

/-- An expression over the columns of a dataset. -/
inductive Expression (α : Type)
  /-- All cells of a column. -/
  | column (name : String)
  /-- One value for every row. -/
  | literal (value : Cell α)
  /-- The cells on the left that stand in a relation to what is on the right. -/
  | filter (comparison : Comparison) (left right : Expression α)
  /-- A hypothesis about several selections. -/
  | hypothesis (kind : HypothesisKind) (operands : List (Expression α))
    (predictions : List Prediction)
  | mean (operand : Expression α)
  | median (operand : Expression α)

namespace Expression

variable {α : Type}

/-- A text literal is written between quotes, a number as it is. -/
def literalText [NumberText α] : Cell α → String
  | .text s => "\"" ++ s ++ "\""
  | cell => cell.toText

mutual

/-- The text of an expression; filters are written without parentheses. -/
def toText [NumberText α] : Expression α → String
  | column name => name
  | literal value => literalText value
  | filter comparison left right =>
    left.toText ++ " " ++ comparison.symbol ++ " " ++ right.toText
  | hypothesis kind operands _ => kind.name ++ "(" ++ ", ".intercalate (toTexts operands) ++ ")"
  | mean operand => "mean(" ++ operand.toText ++ ")"
  | median operand => "median(" ++ operand.toText ++ ")"

/-- The texts of several expressions. -/
def toTexts [NumberText α] : List (Expression α) → List String
  | [] => []
  | e :: es => e.toText :: toTexts es

end

/-- The literal that an expression is. -/
def literal? : Expression α → Option (Cell α)
  | literal value => some value
  | _ => none

end Expression

end StudyAnalysis
