import CollectiveBench.Text.Fields

/-!
# Places for files

The program writes its report to a path. Whether that works depends on the directories that
exist. Here a path is followed through a set of directories, as opening a file for writing
follows it, so that the end of a run can be stated without a file system at hand.
-/

namespace CollectiveBench

open Text

/-- The names from the root to a file or to a directory. -/
abbrev Place := List String

/-- The directories that exist, and the one where paths without a leading slash begin. -/
structure Surroundings where
  directories : List Place
  working : Place
deriving DecidableEq, Repr

namespace Surroundings

/-- The directory that a name inside of a directory leads to. -/
def enter? (surroundings : Surroundings) (directory : Place) (name : String) : Option Place :=
  if name = "" ∨ name = "." then some directory
  else if name = ".." then some directory.dropLast
  else if surroundings.directories.contains (directory ++ [name]) then
    some (directory ++ [name])
  else none

/-- Whether a file in a directory may have the name. It has at most 255 bytes. -/
def admits (surroundings : Surroundings) (directory : Place) (name : String) : Bool :=
  !(["", ".", ".."].contains name) && name.utf8ByteSize ≤ 255 &&
    !surroundings.directories.contains (directory ++ [name])

/-- The place where a path makes a file, if it can. All names but the last one lead through
directories. A path has fewer than 4096 bytes. -/
def newFile? (surroundings : Surroundings) (path : String) : Option Place := do
  let names := (splitOn '/' path.toList).map String.ofList
  let first := if names.head? = some "" then [] else surroundings.working
  let directory ← names.dropLast.foldlM surroundings.enter? first
  let name ← names.getLast?
  if path.utf8ByteSize < 4096 && surroundings.admits directory name then
    some (directory ++ [name])
  else none

/-- A path may wander as long as it stays in directories. A name that a slash follows is not
one of a file. -/
example : let surroundings : Surroundings := ⟨[[], ["home"]], ["home"]⟩
    surroundings.newFile? ".//../home/./report" = some ["home", "report"] ∧
    surroundings.newFile? "report/" = none ∧ surroundings.newFile? "new/report" = none := by
  decide +kernel

end Surroundings

end CollectiveBench
