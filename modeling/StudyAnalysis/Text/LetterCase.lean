/-
**Words without regard to case.**

Names of assumptions and directions of predictions are words of ASCII letters that may be written in
any case.  Only the mappings that can lead to such a word are needed: those of the ASCII letters
and, to upper case, those of the few other letters whose capital form is made of ASCII letters.

Main definitions:

* `StudyAnalysis.Text.capitals` — the capital form of a letter;
* `StudyAnalysis.Text.toCapitals`, `StudyAnalysis.Text.toSmall` — a word in capitals and in small
  letters.
-/

set_option autoImplicit false
set_option relaxedAutoImplicit false

namespace StudyAnalysis.Text

/-- The capital form of a letter, as far as it consists of ASCII letters; any other character is
left as it is.  The letters outside of ASCII are the dotless i, the long s, the sharp s and the
ligatures of f and of st. -/
def capitals (c : Char) : List Char :=
  match c.toNat with
  | 0x0131 => ['I']
  | 0x017F => ['S']
  | 0x00DF => ['S', 'S']
  | 0xFB00 => ['F', 'F']
  | 0xFB01 => ['F', 'I']
  | 0xFB02 => ['F', 'L']
  | 0xFB03 => ['F', 'F', 'I']
  | 0xFB04 => ['F', 'F', 'L']
  | 0xFB05 => ['S', 'T']
  | 0xFB06 => ['S', 'T']
  | _ => [c.toUpper]

/-- The characters with every letter in its capital form. -/
def toCapitals (cs : List Char) : List Char :=
  cs.flatMap capitals

/-- The text with every ASCII letter in its small form. -/
def toSmall (cs : List Char) : List Char :=
  cs.map Char.toLower

end StudyAnalysis.Text
