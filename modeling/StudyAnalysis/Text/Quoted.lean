/-
**Quoted names in messages.**

A message lists names between quotes, so that blanks and characters that do not show can be told
apart.

Main definitions:

* `StudyAnalysis.Text.quoted` — a name between quotes;
* `StudyAnalysis.Text.quotedList` — a list of names between quotes;
* `StudyAnalysis.Text.bracketed` — a list of texts between brackets.
-/

import StudyAnalysis.Text.Invisible

set_option autoImplicit false
set_option relaxedAutoImplicit false

namespace StudyAnalysis.Text

/-- A character by its code point. -/
def codePoint (c : Char) : List Char :=
  ['\\', 'u', '\x7b'] ++ Nat.toDigits 16 c.toNat ++ ['\x7d']

/-- How one character of a quoted name is written. -/
def quotedChar (c : Char) : List Char :=
  if c = '"' then ['\\', '"']
  else if c = '\\' then ['\\', '\\']
  else if c = '\n' then ['\\', 'n']
  else if c = '\r' then ['\\', 'r']
  else if c = '\t' then ['\\', 't']
  else if c = '\x00' then ['\\', '0']
  else if isInvisible c then codePoint c
  else [c]

/-- A name between quotes. -/
def quoted (s : String) : String :=
  String.ofList ('"' :: s.toList.flatMap quotedChar ++ ['"'])

/-- A list of texts between brackets. -/
def bracketed (items : List String) : String :=
  "[" ++ ", ".intercalate items ++ "]"

/-- A list of names between quotes. -/
def quotedList (names : List String) : String :=
  bracketed (names.map quoted)

end StudyAnalysis.Text
