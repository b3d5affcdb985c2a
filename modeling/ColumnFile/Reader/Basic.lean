import ColumnFile.Machine
import ColumnFile.Options.Reader
import ColumnFile.Options.Writer
import ColumnFile.Reader.Group

/-! # Readers

A reader opens a file, checks how it ends, and then reads its groups when they are needed.

* `Reader` — an open file.
* `Reader.ofFile` — opens a file.
* `Reader.group` — one group.
* `Reader.next` — row after row, without deleted rows and groups that a filter rejects.
* `Reader.row?` — a row by its place.
* `Machine.openFile` — opens a file on a machine.
-/

namespace ColumnFile

/-- A **reader**. -/
structure Reader where
  /-- The path of the file. -/
  path : String
  /-- The file, as long as the reader is open. -/
  file : Option FileId
  /-- The file of out-of-line values, if there is one. -/
  toastFile : Option FileId
  /-- The footer of the file. -/
  footer : FileFooter
  /-- The options. -/
  options : ReaderOptions
  /-- The group that is read row after row. -/
  current : Option Group := none
  /-- The place of the group to read after it. -/
  nextGroup : Nat := 0
  /-- The group of the row that was read last by its place. -/
  cached : Option Group := none

namespace Reader

/-! ## Opening -/

/-- The footer of a file, and the end of a file checked on the way to it. -/
def readFooter (store : Store) (file : FileId) (path : String) : Except Fault FileFooter := do
  let length := store.length file
  if length < Trailer.size then throw (.fileTooShort path)
  let trailer := length - Trailer.size
  let postscriptLength ← Trailer.decode (← store.read file trailer Trailer.size)
  if trailer < postscriptLength then throw .postscriptLength
  let start := trailer - postscriptLength
  let postscript ← Message.decode PostScript (← store.read file start postscriptLength)
  postscript.check
  if start < postscript.footerLength then throw .footerLength
  let start := start - postscript.footerLength
  let footer ← Message.decode FileFooter (← store.read file start postscript.footerLength)
  if footer.contentLength ≠ start then throw .footerPlace
  return footer

/-- Refuses a file of other columns than the expected ones. -/
def checkSchema (expected : Option (List ColumnSpec)) (found : List ColumnSpec) :
    Except Fault Unit :=
  match expected with
  | none => .ok ()
  | some schema =>
    if schema = found then .ok ()
    else .error (.schemaDiffers (schema.map (·.name)) (found.map (·.name)))

/-- Opens a file, and the file of out-of-line values beside it if there is one. -/
def ofFile (store : Store) (path : String) (options : ReaderOptions) : Except Fault Reader := do
  let file ← store.open? path
  let footer ← readFooter store file path
  checkSchema options.schema footer.schema
  if (footer.stripes.map (·.rows)).foldr (· + ·) 0 ≠ footer.rows then throw .rowCounts
  return { path, file := some file, toastFile := store.find? (toastFileName path), footer, options }

/-- Lets go of the files and of what was read. -/
def close (r : Reader) : Reader :=
  { r with file := none, toastFile := none, current := none, cached := none }

/-! ## Groups -/

/-- How many groups there are. -/
def groupCount (r : Reader) : Nat := r.footer.stripes.length

/-- The entry of a group in the directory. -/
def information (r : Reader) (index : Nat) : Except Fault StripeInformation :=
  match r.footer.stripes[index]? with
  | some info => .ok info
  | none => .error (.noGroup index r.groupCount)

/-- How many rows a group has. -/
def groupRows (r : Reader) (index : Nat) : Except Fault Nat := (r.information index).map (·.rows)

/-- The statistics of a group. -/
def groupStatistics (r : Reader) (index : Nat) : Except Fault (List ColumnStatistics) :=
  (r.information index).map (·.statistics)

/-- The place of the first row of a group in the file. -/
def groupStart (r : Reader) (index : Nat) : Nat :=
  ((r.footer.stripes.take index).map (·.rows)).foldr (· + ·) 0

/-- Hands the memory that stripes are read into to the caller. -/
def takeBuffer (r : Reader) : Option Buffer × Reader :=
  (r.options.buffer, { r with options := { r.options with buffer := none } })

/-- Reads the octets of a stripe into the memory kept for that, or into new memory. What was there
is gone in either case. -/
def load (store : Store) (file : FileId) (buffer : Option Buffer) (offset length : Nat) :
    Except Fault Buffer × Buffer :=
  let buffer := ((buffer.getD (Buffer.ofCapacity length)).clear).reserve length
  match store.read file offset length with
  | .error e => (.error e, buffer)
  | .ok bs =>
    match buffer.place bs >>= (·.commit length) with
    | .error e => (.error e, buffer)
    | .ok buffer => (.ok buffer, buffer)

/-- The group of a decoded stripe. -/
def makeGroup (r : Reader) (store : Store) (index : Nat) (info : StripeInformation)
    (columns : ColumnSet) : Except Fault Group := do
  return {
    index
    rowOffset := r.groupStart index
    schema := r.footer.schema
    columns
    toasted := ← Group.fetchToast store r.toastFile info columns
    statistics := info.statistics }

variable [BlockLibrary]

/-- Reads a group. The memory that its stripe is read into is kept for the next one. -/
def group (r : Reader) (store : Store) (index : Nat) : Except Fault Group × Reader :=
  match r.information index, r.file with
  | .error e, _ => (.error e, r)
  | .ok _, none => (.error (.readerClosed r.path), r)
  | .ok info, some file =>
    if r.footer.contentLength < info.offset + info.length then
      (.error (.groupPastStripes index), r)
    else
      let (loaded, buffer) := load store file r.options.buffer info.offset info.length
      let result := do
        let columns ← r.footer.decodeStripe info (← loaded).committed
        r.makeGroup store index info columns
      (result, { r with options := { r.options with buffer := some buffer } })

/-! ## Rows -/

/-- Whether a row of the file counts as deleted. -/
def isDeleted (r : Reader) (row : Nat) : Bool := r.options.deleted.any (·.get row)

/-- Whether a group is read. -/
def keeps (r : Reader) (index : Nat) : Bool :=
  match r.options.filter, r.footer.stripes[index]? with
  | some keep, some info => keep index info.statistics
  | _, _ => true

/-- The next row of the current group, if it has one that is not deleted; a group without one is
left behind. -/
def nextInGroup (r : Reader) : Option (Except Fault Row) × Reader :=
  match r.current with
  | none => (none, r)
  | some g =>
    match g.advance r.isDeleted with
    | none => (none, { r with current := none })
    | some (row, g) => (some (g.row row), { r with current := some g })

/-- The first row of the next `groups` groups, if there is one. -/
def nextFrom (store : Store) : (groups : Nat) → Reader → Except Fault (Option Row) × Reader
  | 0, r => (.ok none, r)
  | groups + 1, r =>
    let index := r.nextGroup
    let r := { r with nextGroup := index + 1 }
    if !r.keeps index then nextFrom store groups r
    else match r.group store index with
      | (.error e, r) => (.error e, r)
      | (.ok g, r) =>
        match { r with current := some g }.nextInGroup with
        | (some row, r) => (row.map some, r)
        | (none, r) => nextFrom store groups r

/-- The next row, if there is one. -/
def next (r : Reader) (store : Store) : Except Fault (Option Row) × Reader :=
  match r.nextInGroup with
  | (some row, r) => (row.map some, r)
  | (none, r) => nextFrom store (r.groupCount - r.nextGroup) r

/-- The place of the group that has a row: the last one that does not begin behind it. -/
def groupOf (r : Reader) (row : Nat) : Nat :=
  ((List.range (r.groupCount + 1)).countP fun i => r.groupStart i ≤ row) - 1

/-- The row at a place of the file, if it is not deleted. -/
def row? (r : Reader) (store : Store) (row : Nat) : Except Fault (Option Row) × Reader :=
  if r.footer.rows ≤ row then (.error (.noRow row r.footer.rows), r)
  else if r.isDeleted row then (.ok none, r)
  else
    let index := r.groupOf row
    let found : Except Fault Group × Reader :=
      match r.cached.filter (·.index = index) with
      | some g => (.ok g, r)
      | none => r.group store index
    match found with
    | (.error e, r) => (.error e, r)
    | (.ok g, r) => ((g.row (row - g.rowOffset)).map some, { r with cached := some g })

end Reader

namespace Machine

/-- The rows of some groups, summed as words. -/
def totalRows (stripes : List StripeInformation) : Except Stop Nat :=
  stripes.foldlM (fun total info => add total info.rows) 0

/-- Opens a file, and the file of out-of-line values beside it if there is one. -/
def openFile (store : Store) (path : String) (options : ReaderOptions) : Except Stop Reader := do
  let file ← (store.open? path).mapError .fault
  let footer ← (Reader.readFooter store file path).mapError .fault
  (Reader.checkSchema options.schema footer.schema).mapError .fault
  let total ← totalRows footer.stripes
  if total ≠ footer.rows then throw (.fault .rowCounts)
  return { path, file := some file, toastFile := store.find? (toastFileName path), footer, options }

end Machine

end ColumnFile
