/-
**Values of a document.**

Study files and data files are written in two formats, but the values that they hold are the same:
words, numbers, lists, and tables of named values.

Main definitions:

* `StudyAnalysis.Value` — a value of a document, over a type of fractional numbers.
-/

set_option autoImplicit false
set_option relaxedAutoImplicit false

namespace StudyAnalysis

/-- A value of a document. -/
inductive Value (α : Type)
  /-- The absence of a value. -/
  | null
  | bool (b : Bool)
  /-- A number that is written as a whole number. -/
  | int (n : Int)
  /-- A number that is written with a fraction or an exponent, or that is too large for a word. -/
  | real (x : α)
  | text (s : String)
  | list (items : List (Value α))
  /-- Named values, in the order of the document or of their names. -/
  | table (entries : List (String × Value α))
  /-- A date or a time of day. -/
  | time

namespace Value

variable {α : Type}

/-- The value of a field of a table. -/
def field? (v : Value α) (name : String) : Option (Value α) :=
  match v with
  | table entries => (entries.find? fun e => e.1 == name).map (·.2)
  | _ => none

/-- Whether the value is a table. -/
def isTable : Value α → Bool
  | table _ => true
  | _ => false

/-- A list of texts as a document. -/
def ofTexts (xs : List String) : Value α :=
  .list (xs.map .text)

/-- A value that may be absent as a document. -/
def ofOptional {β : Type} (write : β → Value α) : Option β → Value α
  | some b => write b
  | none => .null

end Value

end StudyAnalysis
