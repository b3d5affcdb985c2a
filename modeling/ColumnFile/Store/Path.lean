/-! # Paths

Paths name files by their parts: repeated separators, a separator at the end and a dot between
separators add no part. Two paths that have the same parts name the same file.

* `PathPart` — a part of a path.
* `Path.parts` — the parts of a path.
* `Path.same`, `Path.before` — equality and order of paths, by their parts.
-/

namespace ColumnFile

/-- A **part** of a path. -/
inductive PathPart
  /-- A separator at the beginning. -/
  | root
  /-- A dot at the beginning. -/
  | current
  /-- Two dots. -/
  | parent
  | name (s : String)
deriving DecidableEq, Repr

namespace PathPart

/-- The place of the kind of a part in the order of parts. -/
def rank : PathPart → Nat
  | root => 0
  | current => 1
  | parent => 2
  | name _ => 3

/-- The name of a part, if it is one. -/
def nameOf : PathPart → String
  | name s => s
  | _ => ""

/-- The order of parts: by kind, and names by their characters. -/
def before (a b : PathPart) : Bool :=
  a.rank < b.rank ∨ (a.rank = b.rank ∧ a.nameOf < b.nameOf)

end PathPart

namespace Path

/-- The part that a text between separators stands for, if it stands for one; `first` tells whether
a dot does. -/
def part? (first : Bool) (s : List Char) : Option PathPart :=
  if s = [] then none
  else if s = ['.'] then if first then some .current else none
  else if s = ['.', '.'] then some .parent
  else some (.name (String.ofList s))

/-- The parts of a path. -/
def parts (path : String) : List PathPart :=
  match path.toList.splitOn '/' with
  | [] => []
  | first :: rest =>
    let head :=
      if first.isEmpty ∧ !rest.isEmpty then [PathPart.root] else (part? true first).toList
    head ++ rest.filterMap (part? false)

/-- Whether two paths name the same file. -/
def same (a b : String) : Bool := parts a = parts b

/-- The order of lists of parts: that of the first different ones. -/
def partsBefore : List PathPart → List PathPart → Bool
  | [], [] => false
  | [], _ :: _ => true
  | _ :: _, [] => false
  | a :: as, b :: bs => a.before b || (a = b && partsBefore as bs)

/-- The order of paths. -/
def before (a b : String) : Bool := partsBefore (parts a) (parts b)

/-- A path is the same as itself. -/
theorem same_refl (path : String) : same path path = true := by simp [same]

end Path

end ColumnFile
