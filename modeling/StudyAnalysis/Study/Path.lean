/-
**Paths of files.**

A path is a row of names with slashes between them, and starts at the root of the file system if its
first name is empty.  A study file states its data file by a path that starts where the study file
is.

Main definitions:

* `StudyAnalysis.Path.names`, `StudyAnalysis.Path.components` — the names in a path;
* `StudyAnalysis.Path.parent`, `StudyAnalysis.Path.join` — the directory of a file, and a path that
  starts in a directory.

Main results:

* `StudyAnalysis.Path.join_of_isAbsolute` — a path from the root does not depend on the directory.
-/

set_option autoImplicit false
set_option relaxedAutoImplicit false

namespace StudyAnalysis.Path

/-- What stands between the slashes of a path; it is empty in front of a slash at the start, behind
one at the end and between two that are next to each other. -/
def names (path : String) : List (List Char) :=
  path.toList.splitOn '/'

/-- Whether a path starts at the root of the file system. -/
def isAbsolute (path : String) : Bool :=
  path.toList.head? = some '/'

/-- Whether a name leads from a directory to another place. -/
def isStep (name : List Char) : Bool :=
  !name.isEmpty && name ≠ ['.']

/-- The names in a path that lead somewhere.  A dot counts as the first name of a path, where it
tells that the path starts in the working directory. -/
def components (path : String) : List (List Char) :=
  match names path with
  | [] => []
  | first :: rest => (if first.isEmpty then [] else [first]) ++ rest.filter isStep

/-- The directory of a file; a path of one name has the empty one. -/
def parent (path : String) : String :=
  let directory := String.ofList (['/'].intercalate (components path).dropLast)
  if isAbsolute path then "/" ++ directory else directory

/-- A path that starts in a directory, unless it starts at the root. -/
def join (directory path : String) : String :=
  if directory.isEmpty || isAbsolute path then path
  else if directory.toList.getLast? = some '/' then directory ++ path
  else directory ++ "/" ++ path

theorem join_of_isAbsolute (directory path : String) (h : isAbsolute path) :
    join directory path = path := by
  simp [join, h]

end StudyAnalysis.Path
