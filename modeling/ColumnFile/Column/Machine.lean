import ColumnFile.Codec.Machine
import ColumnFile.Column.Decode

/-! # Columns on a machine

Decoding columns and reading them once more, with operations that stop the program when an operand
is out of range: the places of slots and of offsets are sums and products of words, and octets are
taken from between two places of a buffer. The count of rows may be any, and so may the place and
the length of a range. What a stream is decoded into is asked for first, as many octets as were
recorded of it; what grows value by value is taken to be there.

* `Machine.fixedValue`, `Machine.fixedRange` — columns of fixed width.
* `Machine.variableValue`, `Machine.variableRange` — columns of variable length.
* `Machine.value`, `Machine.range` — columns of either kind.
* `Machine.fixedOfData`, `Machine.fixedOfInts`, `Machine.variableOfData` — rows that are rebuilt.
* `Machine.decode` — columns of streams.
-/

namespace ColumnFile.Machine

/-! ## Columns of fixed width -/

/-- The slots from the `first` up to but not including the `last`. -/
def run (c : FixedColumn) (first last : Nat) : Except Stop Bytes := do
  let start ← mul first c.width
  let stop ← mul last c.width
  within c.data.size start stop
  return (c.data.extract start stop).toList

/-- The slots of some rows, one after another. -/
def gather (c : FixedColumn) : (rows : List Nat) → Except Stop Bytes
  | [] => .ok []
  | row :: rows => do
    let next ← add row 1
    let slot ← run c row next
    let slots ← gather c rows
    return slot ++ slots

/-- The value of a row, or none if it is null. -/
def fixedValue (c : FixedColumn) (row : Nat) : Except Stop (Option Bytes) := do
  (c.nulls.checkRow row).mapError .fault
  if c.nulls.isNull row then return none
  let start ← mul (c.slotOf row) c.width
  let stop ← add start c.width
  within c.data.size start stop
  return some (c.data.extract start stop).toList

/-- The `len` values from the `start`-th on, joined. In padded storage they are taken at once if no
null row is among them. -/
def fixedRange (c : FixedColumn) (start len : Nat) : Except Stop Bytes := do
  let stop ← add start len
  if c.nulls.nonNull < stop then throw (.fault .rangePastValues)
  match c.format with
  | .dense => run c start stop
  | .padded =>
    if len = 0 then return []
    match c.nulls.rowOfDense start, c.nulls.rowOfDense (← sub stop 1) with
    | some first, some row =>
      let last ← add row 1
      let count ← sub last first
      if count = len then run c first last
      else gather c ((List.range' first count).filter fun r => !c.nulls.isNull r)
    | _, _ => throw (.fault .rangePastValues)

/-- The column of given slots. -/
def fixedOfData (spec : ColumnSpec) (format : StorageFormat) (data : Bytes) (nulls : Nulls) :
    Except Stop FixedColumn := do
  let c ← (FixedColumn.new spec format).mapError .fault
  let _ ← mul (FixedColumn.slots format nulls) c.width
  (FixedColumn.ofData spec format data nulls).mapError .fault

/-- The column of given integers in the rows that are not null. -/
def fixedOfInts (spec : ColumnSpec) (format : StorageFormat) (values : List Int64) (nulls : Nulls) :
    Except Stop FixedColumn := do
  if values.length ≠ nulls.nonNull then throw (.fault .valueCount)
  let octets ← mul (FixedColumn.slots format nulls) (spec.kind.fixedWidth.getD 0)
  allocate octets
  (FixedColumn.ofInts spec format values nulls).mapError .fault

/-! ## Columns of variable length -/

/-- Where a row begins, or the row before it ends. -/
def offset (c : VariableColumn) (i : Nat) : Except Stop Nat := do
  let start ← mul i VariableColumn.offsetWidth
  let stop ← add start VariableColumn.offsetWidth
  within (VariableColumn.offsetWidth * c.offsets.size) start stop
  return c.offset i

/-- The octets from one offset to another. -/
def span (c : VariableColumn) (first last : Nat) : Except Stop Bytes := do
  let start ← offset c first
  let stop ← offset c last
  within c.data.size start stop
  return c.data.extract start stop

/-- The value of a row, or none if it is null. -/
def variableValue (c : VariableColumn) (row : Nat) : Except Stop (Option Bytes) := do
  (c.nulls.checkRow row).mapError .fault
  if c.nulls.isNull row then return none
  let next ← add row 1
  return some (← span c row next)

/-- The octets from the beginning of the `start`-th row that is not null to the beginning of the one
`len` such rows on. -/
def variableRange (c : VariableColumn) (start len : Nat) : Except Stop Bytes := do
  let stop ← add start len
  if c.nulls.nonNull < stop then throw (.fault .rangePastValues)
  match c.nulls.rowOfDense start, c.nulls.rowOfDense stop with
  | some first, some last => span c first last
  | _, _ => throw (.fault .rangePastValues)

/-- The column of given streams, the offsets as octets. -/
def variableOfData (spec : ColumnSpec) (format : StorageFormat) (data offsetBytes : Bytes)
    (nulls : Nulls) (toast : Option Bitmap) : Except Stop VariableColumn := do
  let _ ← (VariableColumn.new spec format).mapError .fault
  let count ← add nulls.rows 1
  let _ ← mul count VariableColumn.offsetWidth
  (VariableColumn.ofData spec format data offsetBytes nulls toast).mapError .fault

/-! ## Columns -/

/-- The stored value of a row, or none if it is null. -/
def value (c : Column) (row : Nat) : Except Stop (Option Bytes) :=
  match c with
  | .fixed rows .. => fixedValue rows row
  | .varying rows .. => variableValue rows row

/-- The `len` stored values from the `start`-th on, joined; null rows are left out. -/
def range (c : Column) (start len : Nat) : Except Stop Bytes :=
  match c with
  | .fixed rows .. => fixedRange rows start len
  | .varying rows .. => variableRange rows start len

variable [BlockLibrary]

/-- The integers of the rows that are not null. -/
def intsOf (codec : Codec) (src : Bytes) (nulls : Nulls) : Except Stop (List Int64) :=
  match nulls.bitmap with
  | some notNull => decodeNotNull codec src notNull
  | none => decodeInts codec src nulls.rows

/-- Decodes a column of fixed width. -/
def decodeFixed (spec : ColumnSpec) (format : StorageFormat) (encoding : ColumnEncoding)
    (src : Bytes) (nulls : Nulls) : Except Stop Column := do
  let codec ← (Codec.forReading encoding.data true).mapError .fault
  let rows ←
    match codec with
    | .runLength _ | .delta => do fixedOfInts spec format (← intsOf codec src nulls) nulls
    | _ => do fixedOfData spec format (← decodeBytes codec src encoding.length) nulls
  return .fixed rows (Stage.read codec encoding.data) []

/-- Decodes the values of a column of variable length. -/
def decodeValues (codec : Codec) (src : Bytes) (length : Nat) : Except Stop Bytes :=
  match codec with
  | .dictionary => do
    allocate length
    let out ← expandInto src (Buffer.ofCapacity length)
    if out.used ≠ length then throw (.fault .dictionaryExpansion)
    return out.committed
  | _ => decodeBytes codec src length

/-- Decodes the offsets of a column of `rows` rows into octets. -/
def decodeOffsets (codec : Codec) (src : Bytes) (length rows : Nat) : Except Stop Bytes :=
  match codec with
  | .runLength _ | .delta => do
    let count ← add rows 1
    let numbers ← decodeInts codec src count
    let octets ← mul numbers.length VariableColumn.offsetWidth
    allocate octets
    (Column.packOffsets numbers).mapError .fault
  | _ => decodeBytes codec src length

/-- Decodes a column of variable length. -/
def decodeVariable (spec : ColumnSpec) (format : StorageFormat) (encoding : ColumnEncoding)
    (src offsetsSrc : Bytes) (nulls : Nulls) (toast : Option Bitmap) : Except Stop Column := do
  let codec ← (Codec.forReading encoding.data false).mapError .fault
  let data ← decodeValues codec src encoding.length
  let offsetsCodec ← (Codec.forReading encoding.offsets false).mapError .fault
  let offsets ← decodeOffsets offsetsCodec offsetsSrc encoding.offsetsLength nulls.rows
  let rows ← variableOfData spec format data offsets nulls toast
  return .varying rows (Stage.read codec encoding.data)
    (Stage.read offsetsCodec encoding.offsets) []

/-- The column of `rows` rows that some streams hold. -/
def decode (spec : ColumnSpec) (format : StorageFormat) (encoding : ColumnEncoding) (rows : Nat)
    (streams : ColumnStreams) : Except Stop Column := do
  let bitmap ← (Column.decodeBitmap streams.present rows .presentTooShort).mapError .fault
  let nulls ← (Nulls.ofBitmap rows bitmap).mapError .fault
  if spec.kind.fixedWidth.isSome then decodeFixed spec format encoding streams.data nulls
  else match streams.offsets with
    | none => throw (.fault (.offsetsMissing spec.name))
    | some offsets =>
      let toast ← (Column.decodeBitmap streams.toast rows .toastTooShort).mapError .fault
      decodeVariable spec format encoding streams.data offsets nulls toast

end ColumnFile.Machine
