/-
**The lexemes of TOML.**

Each reader takes a lexeme from the start of a text and answers with what it stands for and with the
text after it.

Main definitions:

* `StudyAnalysis.Toml.skipLines`, `StudyAnalysis.Toml.lineEnd?` — blanks, comments and ends of
  lines;
* `StudyAnalysis.Toml.string?` — strings, on one line or over several;
* `StudyAnalysis.Toml.number?` — whole and fractional numbers;
* `StudyAnalysis.Toml.time?` — dates and times of day.
-/

import StudyAnalysis.Document.Value
import StudyAnalysis.Number.Reading
import StudyAnalysis.Number.Word

set_option autoImplicit false
set_option relaxedAutoImplicit false

namespace StudyAnalysis.Toml

/-! ### Blanks and comments -/

/-- A blank on a line. -/
def isBlank (c : Char) : Bool :=
  c = ' ' || c = '\t'

/-- A character that may stand in a comment, and in a string on one line: a tab or no control
character. -/
def isPlain (c : Char) : Bool :=
  c = '\t' || (32 ≤ c.toNat && c.toNat ≠ 127)

/-- The text after the blanks at its start. -/
def skipBlanks (cs : List Char) : List Char :=
  cs.dropWhile isBlank

/-- The text after the end of a line at its start. -/
def newline? : List Char → Option (List Char)
  | '\n' :: rest => some rest
  | '\r' :: '\n' :: rest => some rest
  | _ => none

/-- The text after the rest of a line that holds blanks and a comment at most. -/
def lineEnd? (cs : List Char) : Option (List Char) :=
  let rest := match skipBlanks cs with
    | '#' :: comment => comment.dropWhile isPlain
    | rest => rest
  if rest.isEmpty then some [] else newline? rest

/-- The text after the blanks, the ends of lines and the comments at its start.  A comment has to
have an end of line after it. -/
def skipLines (inComment : Bool) : List Char → Option (List Char)
  | [] => if inComment then none else some []
  | '\n' :: rest => skipLines false rest
  | '\r' :: '\n' :: rest => skipLines false rest
  | c :: rest =>
    if inComment then if isPlain c then skipLines true rest else none
    else if isBlank c then skipLines false rest
    else if c = '#' then skipLines true rest
    else some (c :: rest)

/-! ### Strings -/

/-- The text after the marks that end a string, and how many of them belong to the string.  On one
line a mark ends the string; over several lines three do, and up to two more may stand before
them. -/
def closing? (mark : Char) (multiline : Bool) (cs : List Char) : Option (Nat × List Char) :=
  let run := (cs.takeWhile (· = mark)).length
  if multiline then
    if run < 3 then none else some (min run 5 - 3, cs.drop (min run 5))
  else if run = 0 then none
  else some (0, cs.drop 1)

/-- The character that a single escape letter stands for. -/
def escaped? : Char → Option Char
  | 'b' => some '\x08'
  | 't' => some '\t'
  | 'n' => some '\n'
  | 'f' => some '\x0c'
  | 'r' => some '\r'
  | '"' => some '"'
  | '\\' => some '\\'
  | _ => none

/-- The character of a code point. -/
def character? (code : Nat) : Option Char :=
  if code < 0xD800 ∨ (0xE000 ≤ code ∧ code < 0x110000) then some (Char.ofNat code) else none

/-- Where in a string a reader is. -/
inductive Place
  /-- Between two characters. -/
  | plain
  /-- After a backslash. -/
  | escape
  /-- In the number of a code point, of which some digits are missing. -/
  | code (missing value : Nat)
  /-- After a backslash and blanks, where the line has to end. -/
  | brokenLine
  /-- After a line that ends with a backslash, where blanks and ends of lines are skipped. -/
  | gap

/-- Whether blanks and ends of lines are skipped. -/
def Place.isGap : Place → Bool
  | gap => true
  | _ => false

/-- Whether a character is the first one of an end of line that is written with two. -/
def isReturn (c : Char) (rest : List Char) : Bool :=
  c = '\r' && rest.head? = some '\n'

/-- The rest of a string up to the marks that end it, and the text after them.  The characters read
so far are kept in reverse.  Between quotation marks a backslash starts an escape. -/
def stringRest? (mark : Char) (multiline : Bool) :
    Place → List Char → List Char → Option (String × List Char)
  | _, _, [] => none
  | .escape, done, c :: rest =>
    if c = 'u' then stringRest? mark multiline (.code 4 0) done rest
    else if c = 'U' then stringRest? mark multiline (.code 8 0) done rest
    else if multiline && (isBlank c || isReturn c rest) then
      stringRest? mark multiline .brokenLine done rest
    else if multiline && c = '\n' then stringRest? mark multiline .gap done rest
    else match escaped? c with
      | some e => stringRest? mark multiline .plain (e :: done) rest
      | none => none
  | .code missing value, done, c :: rest =>
    match Reading.digit? c with
    | none => none
    | some digit =>
      let value := 16 * value + digit
      if missing ≤ 1 then
        match character? value with
        | some e => stringRest? mark multiline .plain (e :: done) rest
        | none => none
      else stringRest? mark multiline (.code (missing - 1) value) done rest
  | .brokenLine, done, c :: rest =>
    if isBlank c || isReturn c rest then stringRest? mark multiline .brokenLine done rest
    else if c = '\n' then stringRest? mark multiline .gap done rest
    else none
  | place, done, c :: rest =>
    match closing? mark multiline (c :: rest) with
    | some (inside, rest) =>
      some (String.ofList (List.replicate inside mark ++ done).reverse, rest)
    | none =>
      if place.isGap && (isBlank c || c = '\n' || isReturn c rest) then
        stringRest? mark multiline .gap done rest
      else if mark = '"' && c = '\\' then stringRest? mark multiline .escape done rest
      else if multiline && isReturn c rest then stringRest? mark multiline .plain done rest
      else if isPlain c || (multiline && c = '\n') then
        stringRest? mark multiline .plain (c :: done) rest
      else none

/-- The string on one line at the start of a text. -/
def lineString? : List Char → Option (String × List Char)
  | '"' :: rest => stringRest? '"' false .plain [] rest
  | '\'' :: rest => stringRest? '\'' false .plain [] rest
  | _ => none

/-- The string at the start of a text.  An end of line right after the opening of a string over
several lines does not belong to it. -/
def string? : List Char → Option (String × List Char)
  | '"' :: '"' :: '"' :: rest => stringRest? '"' true .plain [] ((newline? rest).getD rest)
  | '\'' :: '\'' :: '\'' :: rest => stringRest? '\'' true .plain [] ((newline? rest).getD rest)
  | cs => lineString? cs

/-! ### Numbers -/

/-- The digits in a base at the start of a text, which are at least one and among which single
underscores may stand. -/
def digits? (base : Nat) (cs : List Char) : Option (List Char × List Char) :=
  let (run, rest) := cs.span fun c => Reading.isDigitIn base c || c = '_'
  let parts := run.splitOn '_'
  if parts.any List.isEmpty then none else some (parts.flatten, rest)

/-- A whole number of a document, which has to fit into 64 bits. -/
def whole? (n : Int) : Option (Value Float) :=
  if Word.fitsSigned n then some (.int n) else none

/-- A whole number in a base of its own. -/
def wholeInBase? (base : Nat) (cs : List Char) : Option (Value Float × List Char) := do
  let (digits, rest) ← digits? base cs
  let n ← Reading.natInBase? base digits
  return (← whole? n, rest)

/-- The fraction of a number, with its digits. -/
def fraction? : List Char → Option (List Char × List Char)
  | '.' :: rest => digits? 10 rest
  | _ => none

/-- The exponent of a number. -/
def exponent? : List Char → Option (Int × List Char)
  | 'e' :: rest | 'E' :: rest => do
    let (negative, rest) := Reading.splitSign rest
    let (digits, rest) ← digits? 10 rest
    let n : Int := Reading.natOfDigits digits
    return (if negative then -n else n, rest)
  | _ => none

/-- A decimal number: a whole one without a fraction and an exponent, and the nearest double
otherwise.  No fractional number may be beyond the greatest double. -/
def decimal? (cs : List Char) : Option (Value Float × List Char) := do
  let (negative, cs) := Reading.splitSign cs
  let (digits, cs) ← digits? 10 cs
  if digits.head? = some '0' ∧ digits.length ≠ 1 then
    none
  else
    let fraction := fraction? cs
    let (places, cs) := fraction.getD ([], cs)
    let exponent := exponent? cs
    let (power, cs) := exponent.getD (0, cs)
    if fraction.isNone && exponent.isNone then
      let n : Int := Reading.natOfDigits digits
      return (← whole? (if negative then -n else n), cs)
    else
      let magnitude := Reading.nearest (Reading.natOfDigits (digits ++ places))
        (power - places.length)
      if magnitude.isInf && !negative then none
      else return (.real (if negative then -magnitude else magnitude), cs)

/-- Infinity or what is not a number, with or without a sign. -/
def special? (cs : List Char) : Option (Value Float × List Char) :=
  let (negative, cs) := Reading.splitSign cs
  match cs with
  | 'i' :: 'n' :: 'f' :: rest =>
    some (.real (if negative then -1.0 / 0.0 else 1.0 / 0.0), rest)
  | 'n' :: 'a' :: 'n' :: rest => some (.real (0.0 / 0.0), rest)
  | _ => none

/-- The number at the start of a text. -/
def number? : List Char → Option (Value Float × List Char)
  | '0' :: 'x' :: rest => wholeInBase? 16 rest
  | '0' :: 'o' :: rest => wholeInBase? 8 rest
  | '0' :: 'b' :: rest => wholeInBase? 2 rest
  | cs => (decimal? cs).or (special? cs)

/-! ### Dates and times of day -/

/-- A count of a fixed number of digits between two bounds. -/
def counted? (length least greatest : Nat) (cs : List Char) : Option (Nat × List Char) :=
  let digits := cs.take length
  let n := Reading.natOfDigits digits
  if digits.length = length ∧ digits.all Char.isDigit ∧ least ≤ n ∧ n ≤ greatest then
    some (n, cs.drop length)
  else none

/-- The text after a mark. -/
def after? (mark : Char) : List Char → Option (List Char)
  | c :: rest => if c = mark then some rest else none
  | [] => none

/-- The number of days of a month. -/
def daysIn (year month : Nat) : Nat :=
  if month = 2 then
    if year % 4 = 0 ∧ (year % 100 ≠ 0 ∨ year % 400 = 0) then 29 else 28
  else if month = 4 ∨ month = 6 ∨ month = 9 ∨ month = 11 then 30
  else 31

/-- The text after a date. -/
def skipDate? (cs : List Char) : Option (List Char) := do
  let (year, cs) ← counted? 4 0 9999 cs
  let (month, cs) ← counted? 2 1 12 (← after? '-' cs)
  let (_, cs) ← counted? 2 1 (daysIn year month) (← after? '-' cs)
  return cs

/-- The text after a time of day. -/
def skipClock? (cs : List Char) : Option (List Char) := do
  let (_, cs) ← counted? 2 0 23 cs
  let (_, cs) ← counted? 2 0 59 (← after? ':' cs)
  let (_, cs) ← counted? 2 0 60 (← after? ':' cs)
  match cs with
  | '.' :: rest =>
    let (digits, rest) := rest.span Char.isDigit
    if digits.isEmpty then none else return rest
  | cs => return cs

/-- The text after the offset of a time, if there is one. -/
def skipOffset (cs : List Char) : List Char :=
  match cs with
  | 'Z' :: rest | 'z' :: rest => rest
  | '+' :: rest | '-' :: rest =>
    let offset := do
      let (_, rest) ← counted? 2 0 23 rest
      let (_, rest) ← counted? 2 0 59 (← after? ':' rest)
      return rest
    offset.getD cs
  | cs => cs

/-- The text after a time of day that follows a date, if there is one. -/
def skipDaytime (cs : List Char) : List Char :=
  match cs with
  | 'T' :: rest | 't' :: rest | ' ' :: rest => ((skipClock? rest).map skipOffset).getD cs
  | cs => cs

/-- The date, the time of day or both at the start of a text. -/
def time? (cs : List Char) : Option (Value Float × List Char) :=
  (((skipDate? cs).map skipDaytime).or (skipClock? cs)).map (.time, ·)

end StudyAnalysis.Toml
