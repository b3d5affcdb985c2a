/-! # Places in a directory of files

A directory holds files and no directories. A path leads from it through its parts: an empty part
and a dot stay where they are, two dots go to the directory around, and a name is the file that it
names, behind which no part can follow.

* `Place` — where a path leads.
* `Place.walk` — the place that some parts lead to.
* `Place.ofPath` — the place that a path leads to.
-/

namespace ColumnFile

/-- Where a path leads: its **place**. -/
inductive Place
  /-- The directory, or one around it. -/
  | directory
  /-- A file, which has to be there or can be put there, by a path without needless parts. -/
  | file (path : String)
  /-- Nothing is there, and nothing can be put there. -/
  | nowhere
deriving DecidableEq, Repr

namespace Place

/-- The most octets of a name. -/
def maxName : Nat := 255

/-- The most octets of a path. -/
def maxPath : Nat := 4095

/-- The place that some parts lead to; `way` leads to the directory they begin at. -/
def walk : (way : String) → (parts : List String) → Place
  | _, [] => directory
  | way, part :: rest =>
    if part.isEmpty ∨ part = "." then walk way rest
    else if part = ".." then walk (way ++ "../") rest
    else if rest.isEmpty ∧ part.utf8ByteSize ≤ maxName then file (way ++ part)
    else nowhere

/-- The place that a path leads to. A separator at its beginning leads out of the directory, to
where no files are. -/
def ofPath (path : String) : Place :=
  if path.toList.contains '\x00' ∨ maxPath < path.utf8ByteSize then nowhere
  else match walk "" (path.splitOn "/") with
    | file way => if path.startsWith "/" then nowhere else file way
    | place => place

end Place

end ColumnFile
