/-
**Records in documents.**

A record is written as a table of its fields, whose names are in any order, or as a list of them in
the order of the record.  Names that the record does not have are ignored.  Fields are read in the
order in which they are written, so that of several faults the first one in the document is found.

Main definitions:

* `StudyAnalysis.Format` — the formats of documents;
* `StudyAnalysis.Value.toText`, `StudyAnalysis.Value.toNumber`, `StudyAnalysis.Value.toCount`,
  `StudyAnalysis.Value.toFlag`, `StudyAnalysis.Value.toWord` — reading single values;
* `StudyAnalysis.Field`, `StudyAnalysis.Value.toRecord` — reading records.
-/

import StudyAnalysis.Document.Value
import StudyAnalysis.Failure
import StudyAnalysis.Number.Word

set_option autoImplicit false
set_option relaxedAutoImplicit false

namespace StudyAnalysis

/-- The format of a document. -/
inductive Format
  | json
  | toml
  deriving DecidableEq

/-- What is read from a document, or why it cannot be. -/
abbrev Described (β : Type) := Except DescriptionFault β

/-- A field of a record. -/
structure Field (α ρ : Type) where
  name : String
  /-- Whether a record without the field is an error. -/
  isRequired : Bool
  /-- The record with the field set to the value in a document. -/
  set : Value α → ρ → Described ρ

namespace Value

variable {α β ρ : Type}

/-! ### Single values -/

/-- A text. -/
def toText : Value α → Described String
  | text s => .ok s
  | _ => .error .misshapen

/-- A number, which may be written as a whole one. -/
def toNumber [Numeric α] : Value α → Described α
  | int n => .ok (Numeric.ofInt n)
  | real x => .ok x
  | _ => .error .misshapen

/-- A count that fits into a word of 64 bits. -/
def toCount : Value α → Described Nat
  | int n => if 0 ≤ n ∧ Word.fits n.toNat then .ok n.toNat else .error .misshapen
  | _ => .error .misshapen

/-- A truth value. -/
def toFlag : Value α → Described Bool
  | bool b => .ok b
  | _ => .error .misshapen

/-- A value that may be absent. -/
def toOptional (read : Value α → Described β) : Value α → Described (Option β)
  | null => .ok none
  | v => (read v).map some

/-- A list of values. -/
def toList (read : Value α → Described β) : Value α → Described (List β)
  | list items => items.mapM read
  | _ => .error .misshapen

/-- A list of texts. -/
def toTexts (v : Value α) : Described (List String) :=
  v.toList toText

/-- Whether the value stands for nothing beside a word of an enumeration. -/
def isUnit : Format → Value α → Bool
  | .json, null => true
  | .toml, list items => items.isEmpty
  | .toml, table entries => entries.isEmpty
  | _, _ => false

/-- What is there, or an error. -/
def expect : Option β → Described β
  | some b => .ok b
  | none => .error .misshapen

/-- A word of an enumeration: a text, or a table of the word alone with nothing under it. -/
def toWord (format : Format) (meaning : String → Option β) : Value α → Described β
  | text s => expect (meaning s)
  | table [(s, v)] => if v.isUnit format then expect (meaning s) else .error .misshapen
  | _ => .error .misshapen

/-! ### Records -/

/-- The record of a table. -/
def recordOfEntries (fields : List (Field α ρ)) (start : ρ) (entries : List (String × Value α)) :
    Described ρ := do
  let record ← entries.foldlM
    (fun record entry => match fields.find? (·.name == entry.1) with
      | some field => field.set entry.2 record
      | none => .ok record)
    start
  if fields.any fun field => field.isRequired && !entries.any (·.1 == field.name) then
    throw .misshapen
  return record

/-- The record of a list.  Items after the last field are an error in JSON alone. -/
def recordOfItems (format : Format) (fields : List (Field α ρ)) (start : ρ)
    (items : List (Value α)) : Described ρ := do
  let record ← (fields.zip items).foldlM (fun record pair => pair.1.set pair.2 record) start
  if (fields.drop items.length).any (·.isRequired) then
    throw .misshapen
  if format = .json ∧ fields.length < items.length then
    throw .misshapen
  return record

/-- The record of a value, whose fields are those of a start where the document has none.  A date
counts as a table without any of the names. -/
def toRecord (format : Format) (fields : List (Field α ρ)) (start : ρ) : Value α → Described ρ
  | table entries => recordOfEntries fields start entries
  | list items => recordOfItems format fields start items
  | time => recordOfEntries fields start []
  | _ => .error .misshapen

/-- A table of values of one kind. -/
def toEntries (read : Value α → Described β) : Value α → Described (List (String × β))
  | table entries => entries.mapM fun entry => return (entry.1, ← read entry.2)
  | _ => .error .misshapen

end Value

end StudyAnalysis
