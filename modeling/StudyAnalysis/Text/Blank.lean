/-
**Blank characters.**

Words in study files may be surrounded by blanks, which are not part of them.  The blanks are the 25
characters of the Unicode property `White_Space`.

Main definitions:

* `StudyAnalysis.Text.isBlank` — whether a character is blank;
* `StudyAnalysis.Text.trim` — a text without the blanks around it.

Main results:

* `StudyAnalysis.Text.isBlank_of_isWhitespace` — every blank of the core library is one.
-/

set_option autoImplicit false
set_option relaxedAutoImplicit false

namespace StudyAnalysis.Text

/-- First and last code point of every range of blank characters. -/
def blankRanges : List (Nat × Nat) := [
  (0x09, 0x0D), (0x20, 0x20), (0x85, 0x85), (0xA0, 0xA0), (0x1680, 0x1680), (0x2000, 0x200A),
  (0x2028, 0x2029), (0x202F, 0x202F), (0x205F, 0x205F), (0x3000, 0x3000)]

/-- Whether the character is blank. -/
def isBlank (c : Char) : Bool :=
  blankRanges.any fun (first, last) => first ≤ c.toNat && c.toNat ≤ last

theorem isBlank_of_isWhitespace (c : Char) (h : c.isWhitespace) : isBlank c := by
  simp only [Char.isWhitespace, Bool.or_eq_true, decide_eq_true_eq] at h
  rcases h with ((h | h) | h) | h <;> subst h <;> decide

/-- The characters without the blanks at their end. -/
def trimRight (cs : List Char) : List Char :=
  (cs.reverse.dropWhile isBlank).reverse

/-- The characters without the blanks at their start and at their end. -/
def trimmed (cs : List Char) : List Char :=
  trimRight (cs.dropWhile isBlank)

/-- The text without the blanks around it. -/
def trim (s : String) : String :=
  String.ofList (trimmed s.toList)

end StudyAnalysis.Text
