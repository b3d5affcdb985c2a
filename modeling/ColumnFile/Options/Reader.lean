import ColumnFile.Buffer
import ColumnFile.Schema.Kind
import ColumnFile.Statistics.Basic
import ColumnFile.Bitmap
import ColumnFile.Text.Quoted

/-! # Options of a reader

* `GroupFilter` — which groups of a file are read.
* `ReaderOptions` — the options.
* `ReaderOptions.text` — their text in a log.
-/

namespace ColumnFile

/-- A **filter**: whether a group is read, given its place and the statistics of its columns. -/
abbrev GroupFilter : Type := Nat → List ColumnStatistics → Bool

/-- The **options** of a reader. -/
structure ReaderOptions where
  /-- The memory that stripes are read into. -/
  buffer : Option Buffer := none
  /-- The groups that are read; without a filter all are. -/
  filter : Option GroupFilter := none
  /-- The rows of the file that count as deleted. -/
  deleted : Option Bitmap := none
  /-- The columns that the file has to have. -/
  schema : Option (List ColumnSpec) := none

namespace ReaderOptions

/-- The text of a value that may be absent. -/
def optional {α : Type} (text : α → String) : Option α → String
  | none => "None"
  | some a => s!"Some({text a})"

/-- The text of a record. -/
def record (name : String) (fields : List (String × String)) : String :=
  let fields := fields.map fun (field, text) => s!"{field}: {text}"
  name ++ " \x7b " ++ String.intercalate ", " fields ++ " \x7d"

/-- The text of a bitmap. -/
def bitmapText (b : Bitmap) : String :=
  record "Bitmap" [("words", Text.brackets (b.words.toList.map fun w => toString w.toNat)),
    ("len", toString b.len)]

/-- The text of a column. -/
def columnText (c : ColumnSpec) : String :=
  record "ColumnDesc"
    [("name", Text.quote c.name), ("kind", c.kind.name), ("align", toString c.align)]

/-- The text of the options: of the memory its size is shown, and of the filter whether there is
one. -/
def text (o : ReaderOptions) : String :=
  record "ReaderOptions"
    [("reused_buffer", optional (fun b => toString b.capacity) o.buffer),
      ("filter", toString o.filter.isSome),
      ("visibility_map", optional bitmapText o.deleted),
      ("schema", optional (fun cs => Text.brackets (cs.map columnText)) o.schema)]

end ReaderOptions

end ColumnFile
