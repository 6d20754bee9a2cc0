/-
**The tables of a TOML document.**

A table is opened by a heading, by a dotted key, or because a heading names a table inside of it.
How it was opened decides what may still be added to it: a heading may open a table once, and only
if a dotted key has not opened it; a dotted key only adds to what dotted keys have opened.

Main definitions:

* `StudyAnalysis.Toml.Origin`, `StudyAnalysis.Toml.Node` — tables with the way they were opened;
* `StudyAnalysis.Toml.addEntry?` — one more entry of a table;
* `StudyAnalysis.Toml.Section`, `StudyAnalysis.Toml.addSection?` — one more heading with its
  entries;
* `StudyAnalysis.Toml.Node.toValue` — the value without its origin.
-/

import StudyAnalysis.Document.Value

set_option autoImplicit false
set_option relaxedAutoImplicit false

namespace StudyAnalysis.Toml

/-- How a table was opened. -/
inductive Origin
  /-- By a heading of its own. -/
  | heading
  /-- By the heading of a table inside of it. -/
  | path
  /-- By a dotted key. -/
  | dotted
  deriving DecidableEq

/-- A part of a document. -/
inductive Node
  /-- A value to which nothing can be added. -/
  | value (v : Value Float)
  | table (origin : Origin) (entries : List (String × Node))
  /-- The tables of a repeated heading, the last one first. -/
  | series (tables : List (List (String × Node)))

/-- The entries of a table, in the order in which they were written. -/
abbrev Entries := List (String × Node)

/-- The node under a name. -/
def Entries.find? (entries : Entries) (name : String) : Option Node :=
  (List.find? (fun entry => entry.1 == name) entries).map (·.2)

/-- The entries without a name. -/
def Entries.remove (entries : Entries) (name : String) : Entries :=
  entries.filter fun entry => entry.1 != name

/-- The entries with another node under a name that they have. -/
def Entries.replace (entries : Entries) (name : String) (node : Node) : Entries :=
  entries.map fun entry => if entry.1 == name then (name, node) else entry

/-- The entries with a change made to the table at the end of a path.  Tables on the path that are
missing are opened; of a repeated heading the last table counts.  A dotted key does not pass through
a table that has a heading. -/
def alter? (opening : Origin) (change : Origin → Entries → Option Entries) :
    List String → Origin → Entries → Option Entries
  | [], origin, entries => change origin entries
  | name :: rest, _, entries =>
    match entries.find? name with
    | none => do
      let inner ← alter? opening change rest opening []
      return entries ++ [(name, .table opening inner)]
    | some (.table origin inner) =>
      if opening = .dotted ∧ origin = .heading then none
      else do
        let inner ← alter? opening change rest origin inner
        return entries.replace name (.table origin inner)
    | some (.series (last :: before)) => do
      let last ← alter? opening change rest .heading last
      return entries.replace name (.series (last :: before))
    | some _ => none

/-- The entries with one more under a dotted key.  The name must be new, and a key of several names
ends in a table that such keys have opened. -/
def addEntry? (entries : Entries) (path : List String) (name : String) (v : Value Float) :
    Option Entries :=
  alter? .dotted
    (fun origin inner =>
      if (path.isEmpty || origin = .dotted) && (inner.find? name).isNone then
        some (inner ++ [(name, .value v)])
      else none)
    path .heading entries

/-- An entry as it is written: a dotted key, as the names before its last one and the last one, and
a value. -/
structure Assignment where
  path : List String
  name : String
  value : Value Float

/-- The entries with several more. -/
def addEntries? (entries : Entries) (assignments : List Assignment) : Option Entries :=
  assignments.foldlM (fun entries a => addEntry? entries a.path a.name a.value) entries

/-- A heading with the entries under it. -/
structure Section where
  /-- Whether the heading may be repeated. -/
  isSeries : Bool
  path : List String
  name : String
  assignments : List Assignment

/-- The entries of a table with those of a section inside of it. -/
def openSection? (s : Section) (entries : Entries) : Option Entries := do
  if s.isSeries then
    let table ← addEntries? [] s.assignments
    match entries.find? s.name with
    | none => return entries ++ [(s.name, .series [table])]
    | some (.series tables) => return entries.replace s.name (.series (table :: tables))
    | some _ => none
  else
    let start ← match entries.find? s.name with
      | none => some []
      | some (.table .path inner) => some inner
      | some _ => none
    let table ← addEntries? start s.assignments
    return entries.remove s.name ++ [(s.name, .table .heading table)]

/-- The entries of a document with one more section. -/
def addSection? (entries : Entries) (s : Section) : Option Entries :=
  alter? .path (fun _ inner => openSection? s inner) s.path .heading entries

mutual

/-- The value of a node. -/
def Node.toValue : Node → Value Float
  | .value v => v
  | .table _ entries => .table (Node.toEntries entries)
  | .series tables => .list (Node.toTables tables).reverse

/-- The values of the entries of a table. -/
def Node.toEntries : List (String × Node) → List (String × Value Float)
  | [] => []
  | (name, node) :: rest => (name, node.toValue) :: Node.toEntries rest

/-- The values of the tables of a repeated heading. -/
def Node.toTables : List (List (String × Node)) → List (Value Float)
  | [] => []
  | entries :: rest => .table (Node.toEntries entries) :: Node.toTables rest

end

end StudyAnalysis.Toml
