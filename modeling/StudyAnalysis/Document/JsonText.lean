/-
**Writing JSON.**

A document is written on one line without spaces, or over several lines that are indented by two
spaces for every container around them.

Main definitions:

* `StudyAnalysis.Json.quote` — a JSON string;
* `StudyAnalysis.Json.compact` — a document on one line;
* `StudyAnalysis.Json.pretty` — a document over several lines.
-/

import StudyAnalysis.Document.Value
import StudyAnalysis.Number.Text

set_option autoImplicit false
set_option relaxedAutoImplicit false

namespace StudyAnalysis.Json

/-- A hexadecimal digit below sixteen, in lower case. -/
def hexDigit (n : Nat) : Char :=
  Nat.digitChar n

/-- How one character of a string is written: quotes, backslashes and control characters are
escaped. -/
def escape (c : Char) : List Char :=
  if c = '"' then ['\\', '"']
  else if c = '\\' then ['\\', '\\']
  else if c = '\n' then ['\\', 'n']
  else if c = '\r' then ['\\', 'r']
  else if c = '\t' then ['\\', 't']
  else if c = '\x08' then ['\\', 'b']
  else if c = '\x0c' then ['\\', 'f']
  else if c.toNat < 32 then
    ['\\', 'u', '0', '0', hexDigit (c.toNat / 16), hexDigit (c.toNat % 16)]
  else [c]

/-- A JSON string. -/
def quote (s : String) : String :=
  String.ofList ('"' :: s.toList.flatMap escape ++ ['"'])

/-- The opening of a table. -/
def openTable : String := "\x7b"

/-- The end of a table. -/
def closeTable : String := "\x7d"

variable {α : Type} [NumberText α]

/-- A value that holds no others, or `none` for lists and tables. -/
def scalar? : Value α → Option String
  | .null => some "null"
  | .bool b => some (if b then "true" else "false")
  | .int n => some (toString n)
  | .real x => some (NumberText.json x)
  | .text s => some (quote s)
  | .time => some "null"
  | .list _ => none
  | .table _ => none

mutual

/-- The document on one line. -/
def compact : Value α → String
  | .list items => "[" ++ ",".intercalate (compactItems items) ++ "]"
  | .table entries => openTable ++ ",".intercalate (compactEntries entries) ++ closeTable
  | v => (scalar? v).getD ""

/-- The items of a list, each on one line. -/
def compactItems : List (Value α) → List String
  | [] => []
  | v :: vs => compact v :: compactItems vs

/-- The entries of a table, each on one line. -/
def compactEntries : List (String × Value α) → List String
  | [] => []
  | (name, v) :: rest => (quote name ++ ":" ++ compact v) :: compactEntries rest

end

/-- A new line, indented for a number of containers. -/
def newline (depth : Nat) : String :=
  "\n" ++ String.ofList (List.replicate (2 * depth) ' ')

/-- The parts of a container on lines of their own between its brackets; an empty one is written as
its brackets alone. -/
def bracketed (opening closing : String) (depth : Nat) (parts : List String) : String :=
  if parts.isEmpty then opening ++ closing
  else opening ++ newline (depth + 1) ++ ("," ++ newline (depth + 1)).intercalate parts
    ++ newline depth ++ closing

mutual

/-- The document over several lines, inside of `depth` containers. -/
def prettyAt (depth : Nat) : Value α → String
  | .list items => bracketed "[" "]" depth (prettyItems (depth + 1) items)
  | .table entries => bracketed openTable closeTable depth (prettyEntries (depth + 1) entries)
  | v => (scalar? v).getD ""

/-- The items of a list over several lines. -/
def prettyItems (depth : Nat) : List (Value α) → List String
  | [] => []
  | v :: vs => prettyAt depth v :: prettyItems depth vs

/-- The entries of a table over several lines. -/
def prettyEntries (depth : Nat) : List (String × Value α) → List String
  | [] => []
  | (name, v) :: rest => (quote name ++ ": " ++ prettyAt depth v) :: prettyEntries depth rest

end

/-- The document over several lines. -/
def pretty (v : Value α) : String :=
  prettyAt 0 v

end StudyAnalysis.Json
