/-
**Trees of files.**

A run reads its files through a function that is given.  A tree of named texts gives one that needs
no file system: a path is followed name by name, and fails for the reason for which a file system
would refuse it.

Main definitions:

* `StudyAnalysis.FileTree` — texts under the places where they are;
* `StudyAnalysis.FileTree.enter`, `StudyAnalysis.FileTree.follow` — the place to which a name or a
  path leads;
* `StudyAnalysis.FileTree.read` — the text at a path.

Main results:

* `StudyAnalysis.FileTree.textAt_eq_ok_iff` — a place has a text exactly if the tree states one;
* `StudyAnalysis.FileTree.content?_of_read` — whatever is read is a text of the tree.
-/

import StudyAnalysis.Failure
import StudyAnalysis.Study.Path

set_option autoImplicit false
set_option relaxedAutoImplicit false

namespace StudyAnalysis

/-- A place in a tree: the names that lead to it from the root. -/
abbrev Place := List (List Char)

/-- Texts and the places where they are.  The places on the way to a text are directories. -/
structure FileTree where
  files : List (Place × String)

namespace FileTree

/-- The tree of the texts at paths from the root. -/
def ofFiles (files : List (String × String)) : FileTree :=
  ⟨files.map fun (path, text) => ((Path.names path).filter Path.isStep, text)⟩

/-- The text at a place. -/
def content? (t : FileTree) (place : Place) : Option String :=
  (t.files.find? fun file => file.1 == place).map Prod.snd

/-- Whether there is a text or a directory at a place. -/
def contains (t : FileTree) (place : Place) : Bool :=
  t.files.any fun file => place.isPrefixOf file.1

/-- The greatest number of bytes in a name. -/
def nameLimit : Nat := 255

/-- The greatest number of bytes in a path. -/
def pathLimit : Nat := 4095

/-- The place to which a name leads.  Every name, also the empty one and the dots, needs a directory
in front of it; two dots lead back, at the root to the root. -/
def enter (t : FileTree) (place : Place) (name : List Char) : Except FileFault Place :=
  if (t.content? place).isSome then .error .notDirectory
  else if !Path.isStep name then .ok place
  else if name = ['.', '.'] then .ok place.dropLast
  else if nameLimit < (String.ofList name).utf8ByteSize then .error .nameTooLong
  else if t.contains (place ++ [name]) then .ok (place ++ [name])
  else .error .notFound

/-- The place to which a path leads that starts at a place or at the root. -/
def follow (t : FileTree) (start : Place) (path : String) : Except FileFault Place :=
  (Path.names path).foldlM t.enter (if Path.isAbsolute path then [] else start)

/-- The text at a place, where a directory has none. -/
def textAt (t : FileTree) (place : Place) : Except FileFault String :=
  match t.content? place with
  | some text => .ok text
  | none => .error .isDirectory

theorem textAt_eq_ok_iff {t : FileTree} {place : Place} {text : String} :
    t.textAt place = .ok text ↔ t.content? place = some text := by
  unfold textAt
  cases t.content? place <;> simp

/-- The text at a path that starts at a place or at the root. -/
def read (t : FileTree) (start : Place) (path : String) : Except FileFault String :=
  if '\x00' ∈ path.toList then .error .nulInName
  else if path.isEmpty then .error .notFound
  else if pathLimit < path.utf8ByteSize then .error .nameTooLong
  else (t.follow start path).bind t.textAt

theorem content?_of_read {t : FileTree} {start : Place} {path text : String}
    (h : t.read start path = .ok text) : ∃ place, t.content? place = some text := by
  unfold read at h
  split at h
  · cases h
  split at h
  · cases h
  split at h
  · cases h
  cases hf : t.follow start path with
  | error _ => simp [hf, Except.bind] at h
  | ok place => exact ⟨place, textAt_eq_ok_iff.1 (by simpa [hf, Except.bind] using h)⟩

end FileTree

end StudyAnalysis
