/-
**Words of 64 bits.**

Main definitions:

* `StudyAnalysis.Word.size` — the number of words;
* `StudyAnalysis.Word.fits`, `StudyAnalysis.Word.fitsSigned` — whether a number can be held in one;
* `StudyAnalysis.Word.wrap`, `StudyAnalysis.Word.checked?` — what becomes of a count that cannot.
-/

set_option autoImplicit false
set_option relaxedAutoImplicit false

namespace StudyAnalysis.Word

/-- The number of words. -/
def size : Nat := UInt64.size

/-- Whether a count fits into a word. -/
def fits (n : Nat) : Bool :=
  n < size

/-- Whether a whole number fits into a word whose first bit is its sign. -/
def fitsSigned (n : Int) : Bool :=
  let half : Int := (size / 2 : Nat)
  0 ≤ n + half && n < half

/-! ### Results of arithmetic -/

/-- What a word keeps of a count: its last 64 binary digits. -/
def wrap (n : Nat) : Nat :=
  n % size

/-- A count that has to fit into a word. -/
def checked? (n : Nat) : Option Nat :=
  if fits n then some n else none

theorem fits_iff {n : Nat} : fits n = true ↔ n < size :=
  decide_eq_true_iff

theorem wrap_eq_self {n : Nat} (h : fits n = true) : wrap n = n :=
  Nat.mod_eq_of_lt (fits_iff.1 h)

/-- A count that passes the check is kept whole. -/
theorem checked?_eq_ite (n : Nat) : checked? n = if fits n then some (wrap n) else none := by
  rw [checked?]
  split
  · rw [wrap_eq_self ‹_›]
  · rfl

theorem fits_of_le {m n : Nat} (hle : m ≤ n) (h : fits n = true) : fits m = true :=
  fits_iff.2 (Nat.lt_of_le_of_lt hle (fits_iff.1 h))

end StudyAnalysis.Word
