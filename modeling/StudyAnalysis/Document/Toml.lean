/-
**Reading TOML.**

A text is read line by line into sections, which are headings with assignments under them.  The
sections then build the tables of the document one after the other.

Main definitions:

* `StudyAnalysis.Toml.value?` — the value at the start of a text;
* `StudyAnalysis.Toml.line?` — the line at the start of a text;
* `StudyAnalysis.Toml.parse?` — the table of a whole text.
-/

import StudyAnalysis.Document.Toml.Lexeme
import StudyAnalysis.Document.Toml.Tree

set_option autoImplicit false
set_option relaxedAutoImplicit false

namespace StudyAnalysis.Toml

/-! ### Keys -/

/-- The most containers around a value, and the most names of a dotted key. -/
def depthLimit : Nat := 79

/-- A character of a name that is written without quotes. -/
def isBare (c : Char) : Bool :=
  c.isAlphanum || c = '-' || c = '_'

/-- One name of a key. -/
def name? (cs : List Char) : Option (String × List Char) :=
  let (bare, rest) := cs.span isBare
  if bare.isEmpty then lineString? cs else some (String.ofList bare, rest)

/-- The names of a dotted key, at most `bound` of them, with blanks around each. -/
def names? : Nat → List Char → Option (List String × List Char)
  | 0, _ => none
  | bound + 1, cs => do
    let (name, rest) ← name? (skipBlanks cs)
    match skipBlanks rest with
    | '.' :: rest =>
      let (names, rest) ← names? bound rest
      return (name :: names, rest)
    | rest => return ([name], rest)

/-- A dotted key, as the names before its last one and the last one. -/
def key? (cs : List Char) : Option (List String × String × List Char) := do
  let (names, rest) ← names? depthLimit cs
  return (names.dropLast, ← names.getLast?, rest)

/-! ### Values -/

/-- The value at the start of a text that holds no others. -/
def scalar? (cs : List Char) : Option (Value Float × List Char) :=
  match cs with
  | 't' :: 'r' :: 'u' :: 'e' :: rest => some (.bool true, rest)
  | 'f' :: 'a' :: 'l' :: 's' :: 'e' :: rest => some (.bool false, rest)
  | c :: _ =>
    if c = '"' ∨ c = '\'' then (string? cs).map fun (s, rest) => (.text s, rest)
    else (time? cs).or (number? cs)
  | [] => none

/-- The table of the assignments between braces. -/
def closedTable? (assignments : List Assignment) : Option (Value Float) :=
  (addEntries? [] assignments).map fun entries => .table (Node.toEntries entries)

mutual

/-- The value at the start of a text, inside of which at most `depth` containers may be nested.  The
fuel bounds the number of steps; every other step takes a character. -/
def value? : Nat → Nat → List Char → Option (Value Float × List Char)
  | 0, _, _ => none
  | fuel + 1, depth, '[' :: rest =>
    match depth with
    | 0 => none
    | depth + 1 => items? fuel depth [] rest
  | fuel + 1, depth, '\x7b' :: rest =>
    match depth with
    | 0 => none
    | depth + 1 =>
      match skipBlanks rest with
      | '\x7d' :: rest => some (.table [], rest)
      | rest => assignments? fuel depth [] rest
  | _, _, cs => scalar? cs

/-- The rest of a list.  The items read so far are kept in reverse; a comma may stand after the last
one, and the items may be on lines of their own. -/
def items? : Nat → Nat → List (Value Float) → List Char → Option (Value Float × List Char)
  | 0, _, _, _ => none
  | fuel + 1, depth, done, cs =>
    match skipLines false cs with
    | none => none
    | some (']' :: rest) => some (.list done.reverse, rest)
    | some cs => do
      let (v, rest) ← value? fuel depth cs
      match ← skipLines false rest with
      | ',' :: rest => items? fuel depth (v :: done) rest
      | ']' :: rest => return (.list (v :: done).reverse, rest)
      | _ => none

/-- The rest of a table between braces, which is on one line. -/
def assignments? : Nat → Nat → List Assignment → List Char → Option (Value Float × List Char)
  | 0, _, _, _ => none
  | fuel + 1, depth, done, cs => do
    let (path, name, rest) ← key? cs
    let (v, rest) ← value? fuel depth (skipBlanks (← after? '=' rest))
    let done := ⟨path, name, v⟩ :: done
    match skipBlanks rest with
    | ',' :: rest => assignments? fuel depth done rest
    | '\x7d' :: rest => return (← closedTable? done.reverse, rest)
    | _ => none

end

/-! ### Lines -/

/-- What a line holds. -/
inductive Line
  /-- Nothing, or a comment. -/
  | blank
  | heading (isSeries : Bool) (path : List String) (name : String)
  | assignment (a : Assignment)

/-- The line at the start of a text, and the lines after it. -/
def line? (cs : List Char) : Option (Line × List Char) :=
  match skipBlanks cs with
  | '[' :: '[' :: rest => do
    let (path, name, rest) ← key? rest
    return (.heading true path name, ← lineEnd? (← after? ']' (← after? ']' rest)))
  | '[' :: rest => do
    let (path, name, rest) ← key? rest
    return (.heading false path name, ← lineEnd? (← after? ']' rest))
  | cs =>
    match lineEnd? cs with
    | some rest => some (.blank, rest)
    | none => do
      let (path, name, rest) ← key? cs
      let rest := skipBlanks (← after? '=' rest)
      let (v, rest) ← value? (2 * rest.length + 1) depthLimit rest
      return (.assignment ⟨path, name, v⟩, ← lineEnd? rest)

/-- The lines of a text, at most `bound` of them. -/
def lines? : Nat → List Char → Option (List Line)
  | _, [] => some []
  | 0, _ => none
  | bound + 1, cs => do
    let (line, rest) ← line? cs
    return line :: (← lines? bound rest)

/-! ### Documents -/

/-- The assignments before the first heading, and the sections. -/
def sections : List Line → List Assignment × List Section
  | [] => ([], [])
  | .blank :: rest => sections rest
  | .assignment a :: rest =>
    let (assignments, later) := sections rest
    (a :: assignments, later)
  | .heading isSeries path name :: rest =>
    let (assignments, later) := sections rest
    ([], ⟨isSeries, path, name, assignments⟩ :: later)

/-- The text without a byte order mark at its start. -/
def skipMark : List Char → List Char
  | '\uFEFF' :: rest => rest
  | cs => cs

/-- The table of a TOML text; `none` if it is not one. -/
def parse? (s : String) : Option (Value Float) := do
  let cs := skipMark s.toList
  let (assignments, later) := sections (← lines? (cs.length + 1) cs)
  let start ← addEntries? [] assignments
  let entries ← later.foldlM addSection? start
  return .table (Node.toEntries entries)

end StudyAnalysis.Toml
