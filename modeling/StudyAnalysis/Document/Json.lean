/-
**Reading JSON.**

A text is first cut into tokens.  The tokens then drive a machine that keeps the containers which
are open around the current place; every token moves it by one step.

Numbers with a fraction or an exponent are read digit by digit into a word of 64 bits as long as
they fit, and the word is then scaled by a power of ten in double precision.

Main definitions:

* `StudyAnalysis.Json.Token`, `StudyAnalysis.Json.tokens?` — the tokens of a text;
* `StudyAnalysis.Json.Machine.step?` — one step of the machine;
* `StudyAnalysis.Json.parse?` — the value of a text.
-/

import StudyAnalysis.Data.NameMap
import StudyAnalysis.Document.Value
import StudyAnalysis.Number.Reading
import StudyAnalysis.Number.Word

set_option autoImplicit false
set_option relaxedAutoImplicit false

namespace StudyAnalysis.Json

/-! ### Numbers -/

/-- The digits appended to a word as far as it still fits, and the digits that are left
over. -/
def absorb (word : Nat) : List Char → Nat × List Char
  | [] => (word, [])
  | c :: cs =>
    let next := 10 * word + (c.toNat - '0'.toNat)
    if Word.fits next then absorb next cs else (word, c :: cs)

/-- A double scaled by a power of ten; `none` if the result is not finite.  Small powers are
approached in steps, after three of which every double has vanished. -/
def scale? (x : Float) (exponent : Int) : Nat → Option Float
  | 0 => some 0
  | steps + 1 =>
    if 0 ≤ exponent then
      if x == 0 then some x
      else if 308 < exponent then none
      else
        let y := x * Reading.nearest 1 exponent
        if y.isFinite then some y else none
    else if -308 ≤ exponent then some (x / Reading.nearest 1 (-exponent))
    else scale? (x / 1e308) (exponent + 308) steps

/-- The value of a number in parts: its sign, its whole digits, its digits after the point, and its
exponent. -/
def number? (negative : Bool) (whole : List Char) (fraction : Option (List Char))
    (exponent : Option Int) : Option (Value Float) :=
  let (word, left) := absorb 0 whole
  if left.isEmpty && fraction.isNone && exponent.isNone && !(negative && word = 0)
      && (!negative || Word.fitsSigned (-word)) then
    some (.int (if negative then -word else word))
  else
    let fraction := fraction.getD []
    let (word, unused) := absorb word fraction
    let scaled := scale? (Float.ofNat word)
      (exponent.getD 0 + left.length - (fraction.length - unused.length : Nat)) 4
    scaled.map fun x => .real (if negative then -x else x)

/-! ### Tokens -/

/-- The tokens of JSON. -/
inductive Token
  | openList
  | closeList
  | openTable
  | closeTable
  | comma
  | colon
  | text (s : String)
  | atom (v : Value Float)

/-- The character that a single escape letter stands for. -/
def escaped? : Char → Option Char
  | '"' => some '"'
  | '\\' => some '\\'
  | '/' => some '/'
  | 'b' => some '\x08'
  | 'f' => some '\x0c'
  | 'n' => some '\n'
  | 'r' => some '\r'
  | 't' => some '\t'
  | _ => none

/-- The rest of a string up to its closing quote, and the text after it.  The characters read so far
are kept in reverse. -/
def stringRest? (done : List Char) : List Char → Option (String × List Char)
  | [] => none
  | '"' :: rest => some (String.ofList done.reverse, rest)
  | '\\' :: 'u' :: a :: b :: c :: d :: rest =>
    match Reading.natInBase? 16 [a, b, c, d] with
    | none => none
    | some unit =>
      if 0xD800 ≤ unit ∧ unit ≤ 0xDBFF then
        match rest with
        | '\\' :: 'u' :: e :: f :: g :: h :: rest =>
          match Reading.natInBase? 16 [e, f, g, h] with
          | none => none
          | some low =>
            if 0xDC00 ≤ low ∧ low ≤ 0xDFFF then
              let code := 0x10000 + (unit - 0xD800) * 0x400 + (low - 0xDC00)
              stringRest? (Char.ofNat code :: done) rest
            else none
        | _ => none
      else if 0xDC00 ≤ unit ∧ unit ≤ 0xDFFF then none
      else stringRest? (Char.ofNat unit :: done) rest
  | '\\' :: e :: rest =>
    match escaped? e with
    | none => none
    | some c => stringRest? (c :: done) rest
  | c :: rest => if c.toNat < 32 then none else stringRest? (c :: done) rest
termination_by cs => cs.length
decreasing_by all_goals simp only [List.length_cons]; omega

/-- The exponent at the start of a text, if there is one, and the text after it; `none` if an
exponent has no digits. -/
def exponentPart? : List Char → Option (Option Int × List Char)
  | [] => some (none, [])
  | c :: cs =>
    if c = 'e' ∨ c = 'E' then
      let (negative, rest) := Reading.splitSign cs
      let (digits, rest) := rest.span Char.isDigit
      let n : Int := Reading.natOfDigits digits
      if digits.isEmpty then none else some (some (if negative then -n else n), rest)
    else some (none, c :: cs)

/-- The digits after a decimal point at the start of a text, if there is one, and the text after
them; `none` if a point has no digits after it. -/
def fractionPart? : List Char → Option (Option (List Char) × List Char)
  | '.' :: cs =>
    let (digits, rest) := cs.span Char.isDigit
    if digits.isEmpty then none else some (some digits, rest)
  | cs => some (none, cs)

/-- The number at the start of a text, and the text after it. -/
def numberToken? (cs : List Char) : Option (Value Float × List Char) := do
  let (negative, cs) := match cs with
    | '-' :: rest => (true, rest)
    | cs => (false, cs)
  let (whole, cs) := cs.span Char.isDigit
  if whole.isEmpty || (whole.head? == some '0' && whole.length != 1) then
    none
  else
    let (fraction, cs) ← fractionPart? cs
    let (exponent, cs) ← exponentPart? cs
    let value ← number? negative whole fraction exponent
    return (value, cs)

/-- The token at the start of a text that does not start with a blank, and the text after it. -/
def token? : List Char → Option (Token × List Char)
  | '[' :: rest => some (.openList, rest)
  | ']' :: rest => some (.closeList, rest)
  | '\x7b' :: rest => some (.openTable, rest)
  | '\x7d' :: rest => some (.closeTable, rest)
  | ',' :: rest => some (.comma, rest)
  | ':' :: rest => some (.colon, rest)
  | '"' :: rest => (stringRest? [] rest).map fun (s, rest) => (.text s, rest)
  | 't' :: 'r' :: 'u' :: 'e' :: rest => some (.atom (.bool true), rest)
  | 'f' :: 'a' :: 'l' :: 's' :: 'e' :: rest => some (.atom (.bool false), rest)
  | 'n' :: 'u' :: 'l' :: 'l' :: rest => some (.atom .null, rest)
  | cs => (numberToken? cs).map fun (v, rest) => (.atom v, rest)

/-- The four characters that may stand between tokens. -/
def isSpace (c : Char) : Bool :=
  c = ' ' || c = '\t' || c = '\n' || c = '\r'

/-- The tokens of a text, at most `fuel` of them. -/
def tokensWithin? : Nat → List Char → Option (List Token)
  | 0, cs => if (cs.dropWhile isSpace).isEmpty then some [] else none
  | fuel + 1, cs =>
    match cs.dropWhile isSpace with
    | [] => some []
    | cs => do
      let (token, rest) ← token? cs
      let tokens ← tokensWithin? fuel rest
      return token :: tokens

/-- The tokens of a text.  Every token takes a character, so that their number is bounded by the
length of the text. -/
def tokens? (s : String) : Option (List Token) :=
  let cs := s.toList
  tokensWithin? cs.length cs

/-! ### The machine -/

/-- A container that is not closed yet, with what it holds so far in reverse. -/
inductive Container
  | list (items : List (Value Float))
  /-- A table, with the name that waits for its value. -/
  | table (entries : List (String × Value Float)) (name : String)

/-- What the machine waits for. -/
inductive Awaiting
  /-- A value. -/
  | value
  /-- The first item of a list or the end of the list. -/
  | item
  /-- The name of an entry; the end of the table is allowed if it is still empty. -/
  | name (entries : List (String × Value Float))
  /-- The colon after a name. -/
  | colon
  /-- A comma or the end of a container. -/
  | separator
  /-- Nothing: the document is complete. -/
  | nothing (document : Value Float)

/-- The containers around the current place, innermost first, and what comes next. -/
structure Machine where
  around : List Container
  awaiting : Awaiting

namespace Machine

/-- The most containers that may be open at once. -/
def depthLimit : Nat := 127

/-- The machine before the first token. -/
def start : Machine := ⟨[], .value⟩

/-- The machine after a complete value. -/
def complete (around : List Container) (v : Value Float) : Machine :=
  match around with
  | [] => ⟨[], .nothing v⟩
  | .list items :: rest => ⟨.list (v :: items) :: rest, .separator⟩
  | .table entries name :: rest => ⟨.table ((name, v) :: entries) "" :: rest, .separator⟩

/-- The value of a closed table: its entries in the order of their names, of which the last of one
name counts. -/
def closedTable (entries : List (String × Value Float)) : Value Float :=
  .table (NameMap.ofList entries.reverse).entries

/-- A value may start with this token. -/
def beginValue? (around : List Container) : Token → Option Machine
  | .atom v => some (complete around v)
  | .text s => some (complete around (.text s))
  | .openList =>
    if around.length < depthLimit then some ⟨.list [] :: around, .item⟩ else none
  | .openTable => if around.length < depthLimit then some ⟨around, .name []⟩ else none
  | _ => none

/-- One step of the machine; `none` if the token cannot stand here. -/
def step? (m : Machine) (token : Token) : Option Machine :=
  match m.awaiting, token, m.around with
  | .value, token, around => beginValue? around token
  | .item, .closeList, .list _ :: rest => some (complete rest (.list []))
  | .item, token, around => beginValue? around token
  | .name entries, .text name, around => some ⟨.table entries name :: around, .colon⟩
  | .name [], .closeTable, around => some (complete around (.table []))
  | .colon, .colon, around => some ⟨around, .value⟩
  | .separator, .comma, .list items :: rest => some ⟨.list items :: rest, .value⟩
  | .separator, .closeList, .list items :: rest => some (complete rest (.list items.reverse))
  | .separator, .comma, .table entries _ :: rest => some ⟨rest, .name entries⟩
  | .separator, .closeTable, .table entries _ :: rest => some (complete rest (closedTable entries))
  | _, _, _ => none

/-- The document, if it is complete. -/
def document? (m : Machine) : Option (Value Float) :=
  match m.awaiting with
  | .nothing v => some v
  | _ => none

end Machine

/-- The value of a JSON text; `none` if it is not one. -/
def parse? (s : String) : Option (Value Float) := do
  let tokens ← tokens? s
  let machine ← tokens.foldlM Machine.step? .start
  machine.document?

end StudyAnalysis.Json
