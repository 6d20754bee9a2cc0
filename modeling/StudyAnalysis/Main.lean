/-
**The program.**

The words of the command line are carried out with the files of the file system.
-/

import StudyAnalysis.CommandLine.Run

set_option autoImplicit false
set_option relaxedAutoImplicit false

namespace StudyAnalysis

/-- Why a file cannot be read.  A directory is only noticed when it is read, with the code 21; a
character that ends a path is noticed before the path is looked up, with the code 22. -/
def FileFault.ofError : IO.Error → FileFault
  | .noFileOrDirectory .. => .notFound
  | .inappropriateType _ code _ => if code = 21 then .isDirectory else .notDirectory
  | .invalidArgument _ code _ => if code = 22 then .nulInName else .nameTooLong
  | error => .other (toString error)

/-- The content of a file. -/
def readTextFile (path : String) : IO (Except FileFault String) := do
  match ← (IO.FS.readBinFile path).toBaseIO with
  | .error error => return .error (.ofError error)
  | .ok bytes =>
    match String.fromUTF8? bytes with
    | some text => return .ok text
    | none => return .error .notText

end StudyAnalysis

open StudyAnalysis

/-- Prints the results of a study, or why there are none. -/
def main (words : List String) : IO UInt32 := do
  let outcome ← CommandLine.run readTextFile words
  IO.print outcome.output
  IO.eprint outcome.errors
  return outcome.exitCode.toUInt32
