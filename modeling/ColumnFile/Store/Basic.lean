import ColumnFile.Buffer
import ColumnFile.Store.Path
import ColumnFile.Store.Place

/-! # Stores

A store of files. A path leads to a file; whoever opened a file goes on to use it after its path is
gone. Octets are written and read at positions, and a file grows when it is written behind its end.
A store of one's own takes any path; someone else's is a directory of files.

* `FileId` — an open file.
* `Store` — paths and files.
* `Store.create`, `Store.open?`, `Store.delete`, `Store.has` — paths.
* `Store.write`, `Store.put`, `Store.read`, `Store.length` — open files.
-/

namespace ColumnFile

/-- An open **file**: its place among the files of a store. -/
abbrev FileId : Type := Nat

/-- A **store** of files. -/
structure Store where
  /-- Whether the files are kept by someone else, whose faults have words of their own. -/
  foreign : Bool := false
  /-- The paths, and the files they lead to. -/
  paths : List (String × FileId) := []
  /-- What is in the files, those without a path included. -/
  contents : List Bytes := []
deriving DecidableEq, Repr, Inhabited

namespace Store

/-- A fault of the store. -/
def fault (s : Store) (f : Fault) : Fault := if s.foreign then .external else f

/-! ## Paths -/

/-- The path that a store keeps for a path, if that can lead to a file. -/
def kept? (s : Store) (path : String) : Option String :=
  if s.foreign then
    match Place.ofPath path with
    | .file path => some path
    | _ => none
  else some path

/-- The file that a path leads to. -/
def find? (s : Store) (path : String) : Option FileId := do
  let path ← s.kept? path
  (s.paths.find? fun p => Path.same p.1 path).map (·.2)

/-- Whether a path leads to something: to a file or, in someone else's store, to a directory. -/
def has (s : Store) (path : String) : Bool :=
  (s.find? path).isSome || (s.foreign && Place.ofPath path = .directory)

/-- Creates an empty file; its path must be new. -/
def create (s : Store) (path : String) : Except Fault (FileId × Store) :=
  match s.kept? path, s.find? path with
  | some path, none =>
    let file := s.contents.length
    .ok (file,
      { s with paths := s.paths ++ [(path, file)], contents := s.contents ++ [[]] })
  | _, _ => .error (s.fault (.fileExists path))

/-- Opens the file that a path leads to. -/
def open? (s : Store) (path : String) : Except Fault FileId :=
  match s.find? path with
  | some file => .ok file
  | none => .error (s.fault (.noSuchFile path))

/-- Deletes the path of a file. -/
def delete (s : Store) (path : String) : Except Fault Store :=
  match s.kept? path, s.find? path with
  | some path, some _ => .ok { s with paths := s.paths.filter fun p => !Path.same p.1 path }
  | _, _ => .error (s.fault (.noSuchFile path))

/-- The paths in order. -/
def list (s : Store) : List String :=
  (s.paths.map (·.1)).mergeSort fun a b => !Path.before b a

/-! ## Open files -/

/-- What is in a file. -/
def get (s : Store) (file : FileId) : Bytes := s.contents.getD file []

/-- How long a file is. -/
def length (s : Store) (file : FileId) : Nat := (s.get file).length

/-- Writes octets at a position. A file that ends before the position is filled up with zeros. -/
def write (s : Store) (file : FileId) (position : Nat) (bs : Bytes) : Store :=
  if s.foreign ∧ bs.isEmpty then s
  else { s with contents := s.contents.set file ((s.get file).overwrite position bs) }

/-- The last position that can be reached in a file of someone else's store: sixteen tebibytes less
a block of four kibibytes. -/
def foreignLimit : Nat := 1 <<< 44 - 1 <<< 12

/-- Writes octets at a position that may be out of reach. -/
def put (s : Store) (file : FileId) (position : Nat) (bs : Bytes) : Except Fault Store :=
  if s.foreign ∧ foreignLimit < position + bs.length then .error .external
  else .ok (s.write file position bs)

/-- Reads octets at a position; the file has to have all of them. In someone else's file no octets
can be read at every position within reach. -/
def read (s : Store) (file : FileId) (position length : Nat) : Except Fault Bytes :=
  if s.foreign ∧ length = 0 then
    if position ≤ foreignLimit then .ok [] else .error .external
  else match (s.get file).slice? position length with
    | some bs => .ok bs
    | none => .error (s.fault (.readPastEnd length position))

end Store

end ColumnFile
