import ColumnFile.Schema.Checked

/-! # Options of a writer

* `WriterOptions` — the options.
* `WriterOptions.choice` — the encoding of a column.
* `WriterOptions.validate` — refuses options that no file can have.
-/

namespace ColumnFile

/-- The name of the file of out-of-line values beside a file. -/
def toastFileName (fileName : String) : String := fileName ++ ".toast"

/-- The **options** of a writer. -/
structure WriterOptions where
  /-- The file to write. -/
  fileName : String := ""
  /-- A number that summaries repeat. -/
  blockId : Nat := 0
  /-- The relation that the rows belong to. -/
  relId : Nat := 0
  /-- The columns. -/
  schema : List ColumnSpec := []
  /-- The encodings of the columns; without any, all have the default. -/
  encodings : List EncodingChoice := []
  /-- The encoding of the offsets of columns of variable length. -/
  offsetsEncoding : EncodingChoice := {}
  /-- The columns that keep ranges, by name. -/
  rangeColumns : List String := []
  /-- The columns that keep digests, by name. -/
  bloomColumns : List String := []
  /-- How many rows a stripe has at most. -/
  groupLimit : Nat := 16384
  /-- The storage format. -/
  format : StorageFormat := .padded
  /-- Whether stripes are logged before they are written. -/
  log : Bool := false
  /-- The length past which a value is stored out of line, if any is. -/
  toastThreshold : Option Nat := some 8192
deriving DecidableEq, Repr, Inhabited

namespace WriterOptions

/-- The encoding of a column. -/
def choice (o : WriterOptions) (column : Nat) : EncodingChoice := o.encodings.getD column {}

/-- The file of out-of-line values. -/
def toastFileName (o : WriterOptions) : String := ColumnFile.toastFileName o.fileName

/-- Refuses options that no file can have. -/
def validate (o : WriterOptions) : Except Fault Unit := do
  if o.fileName.isEmpty then throw .noFileName
  if o.schema.isEmpty then throw .noColumns
  if o.groupLimit = 0 then throw .zeroGroupLimit
  if !o.encodings.isEmpty ∧ o.encodings.length ≠ o.schema.length then
    throw (.choiceCount o.encodings.length o.schema.length)
  o.schema.forM ColumnSpec.checkAlign
  match (o.rangeColumns ++ o.bloomColumns).find? fun n => !o.schema.any (·.name == n) with
  | some name => throw (.unknownStatisticsColumn name)
  | none => pure ()
  if o.toastThreshold = some 0 then throw .zeroToastThreshold

end WriterOptions

end ColumnFile
