import ColumnFile.Column.Nulls
import ColumnFile.Column.ToastRef
import ColumnFile.Rope
import ColumnFile.Schema.Checked

/-! # Columns of variable length

The rows of a column whose values are byte strings of any length: the values joined, and the offsets
between them, one more than there are rows. A null row is empty. A row may hold a reference to an
out-of-line value in place of the value; a bitmap marks such rows.

* `VariableColumn` — the data, the offsets and the rows.
* `VariableColumn.append`, `VariableColumn.appendNull`, `VariableColumn.appendToast` — one more row.
* `VariableColumn.value`, `VariableColumn.range` — the value of a row, and the values of a range of
  the rows that are not null.
* `VariableColumn.ofData` — a column from its streams.
-/

namespace ColumnFile

/-- A **column of variable length**. -/
structure VariableColumn where
  /-- The kind of the values. -/
  kind : Kind
  /-- The alignment of the data. -/
  align : Nat
  /-- The storage format; null rows are empty in either. -/
  format : StorageFormat
  /-- The values, joined. -/
  data : Rope := .empty
  /-- Where each row begins, and where the last one ends. -/
  offsets : Array UInt32 := #[0]
  /-- The null rows. -/
  nulls : Nulls := {}
  /-- The rows that hold a reference; without a bitmap none does. -/
  toast : Option Bitmap := none
  /-- The out-of-line values, joined. -/
  external : Array UInt8 := #[]
deriving DecidableEq, Repr

namespace VariableColumn

/-- The column without rows that a specification describes. -/
def new (spec : ColumnSpec) (format : StorageFormat) : Except Fault VariableColumn :=
  if spec.kind.fixedWidth.isSome then .error (.fixedWidth spec.name)
  else do
    spec.checkAlign
    return { kind := spec.kind, align := spec.align, format }

/-! ## Growth -/

/-- Ends a row at the end of the data. -/
def endRow (c : VariableColumn) (notNull toasted : Bool) : Attempt VariableColumn :=
  if 1 <<< 32 ≤ c.data.size then (.error .offsetsOverflow, c)
  else
    (.ok (),
      { c with
        offsets := c.offsets.push (UInt32.ofNat c.data.size)
        toast :=
          match c.toast with
          | some b => some (b.push toasted)
          | none => if toasted then some ((Bitmap.filled c.nulls.rows false).push true) else none
        nulls := c.nulls.push notNull })

/-- One more row that is not null. -/
def append (c : VariableColumn) (value : Bytes) : Attempt VariableColumn :=
  { c with data := c.data ++ value }.endRow true false

/-- One more null row. -/
def appendNull (c : VariableColumn) : Attempt VariableColumn := c.endRow false false

/-- One more row, whose value is stored out of line. -/
def appendToast (c : VariableColumn) (value : Bytes) : Attempt VariableColumn :=
  let ref : ToastRef :=
    { offset := UInt64.ofNat c.external.size, length := UInt64.ofNat value.length }
  { c with data := c.data ++ ref.encode, external := c.external ++ value }.endRow true true

/-- Some more null rows, up to the first failure. -/
def appendNulls : (n : Nat) → VariableColumn → Attempt VariableColumn
  | 0, c => (.ok (), c)
  | n + 1, c =>
    match c.appendNull with
    | (.ok (), c) => appendNulls n c
    | (.error e, c) => (.error e, c)

/-! ## Reading -/

/-- Where a row begins, or the row before it ends. -/
def offset (c : VariableColumn) (i : Nat) : Nat := (c.offsets.getD i 0).toNat

/-- The octets from one offset to another. -/
def span (c : VariableColumn) (first last : Nat) : Bytes :=
  c.data.extract (c.offset first) (c.offset last)

/-- The value of a row, or none if it is null. -/
def value (c : VariableColumn) (row : Nat) : Except Fault (Option Bytes) := do
  c.nulls.checkRow row
  if c.nulls.isNull row then return none
  return some (c.span row (row + 1))

/-- The octets from the beginning of the `start`-th row that is not null to the beginning of the one
`len` such rows on. As null rows are empty, these are the values between. -/
def range (c : VariableColumn) (start len : Nat) : Except Fault Bytes :=
  if c.nulls.nonNull < start + len then .error .rangePastValues
  else match c.nulls.rowOfDense start, c.nulls.rowOfDense (start + len) with
    | some first, some last => .ok (c.span first last)
    | _, _ => .error .rangePastValues

/-- The values of the rows that are not null. -/
def values (c : VariableColumn) : List Bytes :=
  ((List.range c.nulls.rows).filter fun r => !c.nulls.isNull r).map fun r => c.span r (r + 1)

/-- The offsets as integers. -/
def offsetInts (c : VariableColumn) : List Int64 :=
  c.offsets.toList.map fun o => Int64.ofNat o.toNat

/-- The width of an offset. -/
def offsetWidth : Nat := 4

/-- The octets of the offsets, little-endian. -/
def offsetBytes (c : VariableColumn) : Bytes :=
  c.offsets.toList.flatMap fun o => Bytes.ofNatLE offsetWidth o.toNat

/-! ## Rebuilding -/

/-- The offsets that octets hold. -/
def parseOffsets : (n : Nat) → Bytes → List UInt32
  | 0, _ => []
  | n + 1, bs =>
    UInt32.ofNat (Bytes.toNatLE (bs.take offsetWidth)) :: parseOffsets n (bs.drop offsetWidth)

/-- The first place at which an offset is below the one before it. -/
def descent? (previous : UInt32) (index : Nat) : List UInt32 → Option Nat
  | [] => none
  | o :: rest => if o < previous then some index else descent? o (index + 1) rest

/-- The first place at which offsets go wrong: they start at zero and never descend. -/
def offsetFault? : List UInt32 → Option Nat
  | [] => none
  | first :: rest => if first ≠ 0 then some 0 else descent? first 1 rest

/-- The column of given streams, the offsets as octets. -/
def ofData (spec : ColumnSpec) (format : StorageFormat) (data offsetBytes : Bytes)
    (nulls : Nulls) (toast : Option Bitmap) : Except Fault VariableColumn := do
  let c ← new spec format
  if offsetBytes.length ≠ (nulls.rows + 1) * offsetWidth then
    throw (.offsetBytes spec.name offsetBytes.length nulls.rows)
  let offsets := parseOffsets (nulls.rows + 1) offsetBytes
  if let some index := offsetFault? offsets then throw (.offsetsNotMonotonic spec.name index)
  if (offsets.getLastD 0).toNat ≠ data.length then throw (.lastOffset spec.name)
  if toast.any (·.len ≠ nulls.rows) then throw .toastBitmapLength
  return { c with data := .ofBytes data, offsets := offsets.toArray, nulls, toast }

/-- How many octets the column takes in memory. -/
def size (c : VariableColumn) : Nat :=
  c.data.size + offsetWidth * c.offsets.size + c.nulls.bitmapBytes +
    (c.toast.map fun b => Bitmap.bytesFor b.len).getD 0 + c.external.size

end VariableColumn

end ColumnFile
