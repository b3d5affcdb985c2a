import ColumnFile.Column.Nulls
import ColumnFile.Datum.Stored
import ColumnFile.Schema.Checked

/-! # Columns of fixed width

The rows of a column whose values all have one width. In padded storage every row has a slot in the
data and the slots of null rows are zero; in dense storage only the rows that are not null have one.

* `FixedColumn` — the data and the null rows.
* `FixedColumn.append`, `FixedColumn.appendNull` — one more row.
* `FixedColumn.value`, `FixedColumn.range` — the value of a row, and the values of a range of the
  rows that are not null.
* `FixedColumn.ofData`, `FixedColumn.ofInts` — a column from its slots, and from its integers.
-/

namespace ColumnFile

/-- A **column of fixed width**. -/
structure FixedColumn where
  /-- The kind of the values. -/
  kind : Kind
  /-- The width of a value. -/
  width : Nat
  /-- The alignment of the data. -/
  align : Nat
  /-- What null rows take up in the data. -/
  format : StorageFormat
  /-- The slots, joined. -/
  data : Array UInt8 := #[]
  /-- The null rows. -/
  nulls : Nulls := {}
deriving DecidableEq, Repr

namespace FixedColumn

/-- The column without rows that a specification describes. -/
def new (spec : ColumnSpec) (format : StorageFormat) : Except Fault FixedColumn :=
  match spec.kind.fixedWidth with
  | none => .error (.notFixedWidth spec.name)
  | some width => do
    spec.checkAlign
    return { kind := spec.kind, width, align := spec.align, format }

/-- How many slots the rows take. -/
def slots (format : StorageFormat) (nulls : Nulls) : Nat :=
  match format with
  | .dense => nulls.nonNull
  | .padded => nulls.rows

/-! ## Growth -/

/-- One more row that is not null. -/
def append (c : FixedColumn) (value : Bytes) : Attempt FixedColumn :=
  if value.length ≠ c.width then (.error (.valueWidth value.length c.width), c)
  else (.ok (), { c with data := c.data ++ value, nulls := c.nulls.push true })

/-- One more null row. -/
def appendNull (c : FixedColumn) : FixedColumn where
  kind := c.kind
  width := c.width
  align := c.align
  format := c.format
  data :=
    match c.format with
    | .dense => c.data
    | .padded => c.data ++ List.replicate c.width (0 : UInt8)
  nulls := c.nulls.push false

/-- Some more null rows. -/
def appendNulls : (n : Nat) → FixedColumn → FixedColumn
  | 0, c => c
  | n + 1, c => appendNulls n c.appendNull

/-! ## Reading -/

/-- The slot of a row that is not null. -/
def slotOf (c : FixedColumn) (row : Nat) : Nat :=
  match c.format with
  | .dense => c.nulls.denseIndex row
  | .padded => row

/-- The octets of a slot. -/
def slot (c : FixedColumn) (i : Nat) : Bytes :=
  (c.data.extract (i * c.width) ((i + 1) * c.width)).toList

/-- The value of a row, or none if it is null. -/
def value (c : FixedColumn) (row : Nat) : Except Fault (Option Bytes) := do
  c.nulls.checkRow row
  if c.nulls.isNull row then return none
  return some (c.slot (c.slotOf row))

/-- The `len` values from the `start`-th on, joined; null rows are left out and not counted. -/
def range (c : FixedColumn) (start len : Nat) : Except Fault Bytes :=
  if c.nulls.nonNull < start + len then .error .rangePastValues
  else match c.format with
    | .dense => .ok (c.data.extract (start * c.width) ((start + len) * c.width)).toList
    | .padded =>
      if len = 0 then .ok []
      else match c.nulls.rowOfDense start, c.nulls.rowOfDense (start + len - 1) with
        | some first, some last =>
          let rows := (List.range' first (last + 1 - first)).filter fun r => !c.nulls.isNull r
          .ok (rows.flatMap c.slot)
        | _, _ => .error .rangePastValues

/-- The slots of the rows that are not null, in order. -/
def denseSlots (c : FixedColumn) : List Nat :=
  match c.format with
  | .dense => List.range c.nulls.nonNull
  | .padded => (List.range c.nulls.rows).filter fun r => !c.nulls.isNull r

/-- The integers of the rows that are not null. -/
def ints (c : FixedColumn) : List Int64 := c.denseSlots.map fun i => (c.slot i).toInt64

/-! ## Rebuilding -/

/-- The column of given slots. -/
def ofData (spec : ColumnSpec) (format : StorageFormat) (data : Bytes) (nulls : Nulls) :
    Except Fault FixedColumn := do
  let c ← new spec format
  let count := slots format nulls
  if data.length ≠ count * c.width then
    throw (.slotBytes spec.name data.length count c.width)
  return { c with data := data.toArray, nulls }

/-- The slots that hold integers in the rows that are not null: `notNull` tells for each row whether
it is, and in padded storage the others hold zeros. -/
def slotsOfInts (format : StorageFormat) (width : Nat) :
    (notNull : List Bool) → (values : List Int64) → Bytes
  | true :: rows, v :: values => Bytes.ofInt64 width v ++ slotsOfInts format width rows values
  | true :: rows, [] => slotsOfInts format width rows []
  | false :: rows, values =>
    match format with
    | .dense => slotsOfInts format width rows values
    | .padded => List.replicate width 0 ++ slotsOfInts format width rows values
  | [], _ => []

/-- The column of given integers in the rows that are not null. -/
def ofInts (spec : ColumnSpec) (format : StorageFormat) (values : List Int64) (nulls : Nulls) :
    Except Fault FixedColumn :=
  if values.length ≠ nulls.nonNull then .error .valueCount
  else
    let notNull := (List.range nulls.rows).map fun r => !nulls.isNull r
    let width := spec.kind.fixedWidth.getD 0
    ofData spec format (slotsOfInts format width notNull values) nulls

/-- How many octets the column takes in memory. -/
def size (c : FixedColumn) : Nat := c.data.size + c.nulls.bitmapBytes

end FixedColumn

end ColumnFile
