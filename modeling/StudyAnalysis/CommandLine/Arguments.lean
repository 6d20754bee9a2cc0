/-
**The arguments of the command line.**

The words of a command line are taken one after the other.  A path or the value of an option is only
looked at when the next one is complete or the words have ended, so that an unknown word is reported
before a bad value in front of it.

Main definitions:

* `StudyAnalysis.Arguments` — what the words ask for;
* `StudyAnalysis.Misuse`, `StudyAnalysis.Interruption` — why the words are not taken to their end;
* `StudyAnalysis.Arguments.parse` — reading the words;
* `StudyAnalysis.Arguments.override` — the settings with those of the command line.
-/

import StudyAnalysis.Number.Reading
import StudyAnalysis.Study.Settings

set_option autoImplicit false
set_option relaxedAutoImplicit false

namespace StudyAnalysis

/-- What a command line asks for. -/
structure Arguments where
  /-- The path of the study file. -/
  study : String
  /-- The path of a data file, in place of the one that the study states. -/
  data : Option String
  mode : Option Mode
  alpha : Option Float
  seed : Option Nat
  /-- Whether the results are printed as a document. -/
  json : Bool

/-- What is wrong with a command line. -/
inductive Misuse
  /-- There is no study file. -/
  | missingStudy
  /-- A path is empty, a mode is unknown, or an option has no value. -/
  | badValue
  /-- A number is not one. -/
  | badNumber
  /-- An option is unknown, or there is a second study file. -/
  | unknownWord
  /-- An option is given twice. -/
  | repeatedOption
  /-- An option that takes no value has one. -/
  | unexpectedValue
  deriving DecidableEq

/-- Why the words of a command line are not taken to their end. -/
inductive Interruption
  /-- The short or the long help is asked for. -/
  | help (long : Bool)
  /-- The version is asked for. -/
  | version
  | misuse (fault : Misuse)
  deriving DecidableEq

/-- The options that take a value. -/
inductive ValueOption
  | data
  | mode
  | alpha
  | seed
  deriving DecidableEq

namespace ValueOption

/-- The name of the option. -/
def name : ValueOption → String
  | data => "data"
  | mode => "mode"
  | alpha => "alpha"
  | seed => "seed"

/-- The option of a name. -/
def ofName? (word : String) : Option ValueOption :=
  [data, mode, alpha, seed].find? fun o => o.name == word

end ValueOption

namespace Arguments

/-! ### Values -/

/-- What is settled so far; the study file may still be missing. -/
structure Draft where
  study : Option String
  data : Option String
  mode : Option Mode
  alpha : Option Float
  seed : Option Nat
  json : Bool

/-- What is still to be settled. -/
inductive Pending
  | nothing
  | study (path : String)
  /-- An option that waits for its value. -/
  | bare (o : ValueOption)
  | valued (o : ValueOption) (value : String)

/-- A value read by a function, or a fault. -/
def read {β : Type} (fault : Misuse) (reading : Option β) : Except Interruption β :=
  match reading with
  | some b => .ok b
  | none => .error (.misuse fault)

/-- A path, which is not empty. -/
def path? (word : String) : Option String :=
  if word.isEmpty then none else some word

/-- Whether an option has a value already. -/
def Draft.has (d : Draft) : ValueOption → Bool
  | .data => d.data.isSome
  | .mode => d.mode.isSome
  | .alpha => d.alpha.isSome
  | .seed => d.seed.isSome

/-- The draft with the value of an option. -/
def Draft.put (d : Draft) (o : ValueOption) (value : String) : Except Interruption Draft := do
  if d.has o then
    throw (.misuse .repeatedOption)
  match o with
  | .data => return { d with data := some (← read .badValue (path? value)) }
  | .mode => return { d with mode := some (← read .badValue (Mode.ofName? value)) }
  | .alpha => return { d with alpha := some (← read .badNumber (Reading.float? value)) }
  | .seed => return { d with seed := some (← read .badNumber (Reading.word64? value)) }

/-- The draft with what was pending. -/
def Draft.settle (d : Draft) : Pending → Except Interruption Draft
  | .nothing => .ok d
  | .study path => do return { d with study := some (← read .badValue (path? path)) }
  | .bare _ => .error (.misuse .badValue)
  | .valued o value => d.put o value

/-! ### Words -/

/-- What is known after some words. -/
structure Progress where
  draft : Draft
  pending : Pending
  /-- Whether all words that follow are paths. -/
  pathsOnly : Bool

namespace Progress

/-- Before the first word. -/
def start : Progress :=
  ⟨⟨none, none, none, none, none, false⟩, .nothing, false⟩

/-- What is known with everything settled. -/
def settled (p : Progress) : Except Interruption Progress := do
  return { p with draft := ← p.draft.settle p.pending, pending := .nothing }

/-- Whether there is a study file, be it settled or pending. -/
def hasStudy (p : Progress) : Bool :=
  match p.pending with
  | .study _ => true
  | _ => p.draft.study.isSome

/-- A path. -/
def takePath (p : Progress) (path : String) : Except Interruption Progress := do
  if p.hasStudy then
    throw (.misuse .unknownWord)
  return { ← p.settled with pending := .study path }

/-- An option with two dashes, which may have a value after an equals sign. -/
def takeLong (p : Progress) (name : String) (value : Option String) :
    Except Interruption Progress :=
  match ValueOption.ofName? name with
  | some o =>
    match value with
    | some value => do
      let p ← p.settled
      return { p with draft := ← p.draft.put o value }
    | none => do return { ← p.settled with pending := .bare o }
  | none =>
    if name ∉ ["json", "help", "version"] then .error (.misuse .unknownWord)
    else if value.isSome then .error (.misuse .unexpectedValue)
    else do
      let p ← p.settled
      if name = "help" then throw (.help true)
      if name = "version" then throw .version
      if p.draft.json then throw (.misuse .repeatedOption)
      return { p with draft := { p.draft with json := true } }

/-- An option of one letter. -/
def takeShort (p : Progress) (letter : Char) : Except Interruption Progress := do
  if letter ≠ 'h' ∧ letter ≠ 'V' then
    throw (.misuse .unknownWord)
  let _ ← p.settled
  throw (if letter = 'h' then .help false else .version)

/-- A word that is no option: the value of the option before it, or a path. -/
def takePlain (p : Progress) (word : String) : Except Interruption Progress :=
  match p.pending with
  | .bare o => .ok { p with pending := .valued o word }
  | _ => p.takePath word

/-- The parts of a word around its first equals sign. -/
def splitWord (cs : List Char) : String × Option String :=
  match cs.span (· ≠ '=') with
  | (name, []) => (String.ofList name, none)
  | (name, _ :: value) => (String.ofList name, some (String.ofList value))

/-- One more word. -/
def take (p : Progress) (word : String) : Except Interruption Progress :=
  if p.pathsOnly then p.takePath word
  else match word.toList with
    | ['-', '-'] => .ok { p with pathsOnly := true }
    | '-' :: '-' :: rest =>
      let (name, value) := splitWord rest
      p.takeLong name value
    | '-' :: letter :: _ => p.takeShort letter
    | _ => p.takePlain word

end Progress

/-- What the words of a command line ask for. -/
def parse (words : List String) : Except Interruption Arguments := do
  let p ← (← words.foldlM Progress.take .start).settled
  let d := p.draft
  let some study := d.study | throw (.misuse .missingStudy)
  return ⟨study, d.data, d.mode, d.alpha, d.seed, d.json⟩

/-! ### Settings -/

/-- The settings with those that the command line gives. -/
def override (a : Arguments) (s : Settings Float) : Settings Float :=
  let s := match a.mode with
    | some mode => { s with mode }
    | none => s
  let s := match a.alpha with
    | some alpha => s.withAlpha alpha
    | none => s
  match a.seed with
  | some seed => s.withSeed seed
  | none => s

end Arguments

end StudyAnalysis
