import ColumnFile.Column.Basic

/-! # Reading columns

A column is rebuilt from its streams in a stripe and from what the stripe recorded of their
encodings. Every stream is checked against the count of rows.

* `ColumnStreams` — the streams of a column.
* `Column.streams` — the streams that a column is stored as.
* `Column.decode` — the column of some streams.
-/

namespace ColumnFile

/-- The **streams** of a column in a stripe. -/
structure ColumnStreams where
  /-- The bitmap of the rows that are not null. -/
  present : Option Bytes := none
  /-- The data. -/
  data : Bytes := []
  /-- The offsets of a column of variable length. -/
  offsets : Option Bytes := none
  /-- The bitmap of the rows that hold references. -/
  toast : Option Bytes := none
deriving DecidableEq, Repr, Inhabited

namespace Column

variable [BlockLibrary]

/-- The streams that a column is stored as, and the column that keeps them. -/
def streams (c : Column) : Except Fault ColumnStreams × Column :=
  let (data, c) := c.encodeData
  let (offsets, c) := c.encodeOffsets
  let result := do
    return {
      present := c.nulls.bitmap.map Bitmap.toBytes
      data := ← data
      offsets := ← offsets
      toast := c.toastRows.map Bitmap.toBytes }
  (result, c)

/-- Decodes a column of fixed width. Integer codecs hold the values that are not null, the others
the slots. -/
def decodeFixed (spec : ColumnSpec) (format : StorageFormat) (encoding : ColumnEncoding)
    (src : Bytes) (nulls : Nulls) : Except Fault Column := do
  let codec ← Codec.forReading encoding.data true
  let ofInts (_ : Unit) : Except Fault FixedColumn := do
    let values ←
      match nulls.bitmap with
      | some notNull => codec.decodeNotNull src notNull
      | none => codec.decodeInts src nulls.rows
    FixedColumn.ofInts spec format values nulls
  let rows ←
    match codec with
    | .runLength _ | .delta => ofInts ()
    | _ => do FixedColumn.ofData spec format (← codec.decodeBytes src encoding.length) nulls
  return fixed rows (Stage.read codec encoding.data) []

/-- Decodes the values of a column of variable length. -/
def decodeValues (codec : Codec) (src : Bytes) (length : Nat) : Except Fault Bytes :=
  match codec with
  | .dictionary =>
    match Dictionary.expand src with
    | (.error e, _) => .error e
    | (.ok (), values) =>
      if values.length ≠ length then .error .dictionaryExpansion else .ok values
  | _ => codec.decodeBytes src length

/-- The octets of offsets that were read as integers. -/
def packOffsets : List Int64 → Except Fault Bytes
  | [] => .ok []
  | v :: rest =>
    if v < 0 ∨ 1 <<< 32 ≤ v.toInt then .error .offsetOutOfRange
    else do return Bytes.ofInt64 VariableColumn.offsetWidth v ++ (← packOffsets rest)

/-- Decodes the offsets of a column of `rows` rows into octets. -/
def decodeOffsets (codec : Codec) (src : Bytes) (length rows : Nat) : Except Fault Bytes :=
  match codec with
  | .runLength _ | .delta => do packOffsets (← codec.decodeInts src (rows + 1))
  | _ => codec.decodeBytes src length

/-- Decodes a column of variable length. -/
def decodeVariable (spec : ColumnSpec) (format : StorageFormat) (encoding : ColumnEncoding)
    (src offsetsSrc : Bytes) (nulls : Nulls) (toast : Option Bitmap) : Except Fault Column := do
  let codec ← Codec.forReading encoding.data false
  let data ← decodeValues codec src encoding.length
  let offsetsCodec ← Codec.forReading encoding.offsets false
  let offsets ← decodeOffsets offsetsCodec offsetsSrc encoding.offsetsLength nulls.rows
  let rows ← VariableColumn.ofData spec format data offsets nulls toast
  return varying rows (Stage.read codec encoding.data) (Stage.read offsetsCodec encoding.offsets) []

/-- The bitmap of a stream, if there is one; it has a bit for each row. -/
def decodeBitmap (stream : Option Bytes) (rows : Nat) (short : Fault) :
    Except Fault (Option Bitmap) :=
  match stream with
  | none => .ok none
  | some bs =>
    match Bitmap.ofBytes? bs rows with
    | none => .error short
    | some b => .ok (some b)

/-- The column of `rows` rows that some streams hold. -/
def decode (spec : ColumnSpec) (format : StorageFormat) (encoding : ColumnEncoding) (rows : Nat)
    (streams : ColumnStreams) : Except Fault Column := do
  let nulls ← Nulls.ofBitmap rows (← decodeBitmap streams.present rows .presentTooShort)
  if spec.kind.fixedWidth.isSome then decodeFixed spec format encoding streams.data nulls
  else match streams.offsets with
    | none => throw (.offsetsMissing spec.name)
    | some offsets =>
      let toast ← decodeBitmap streams.toast rows .toastTooShort
      decodeVariable spec format encoding streams.data offsets nulls toast

/-- The column that is read back from the streams of a column, under a name. -/
def reload (c : Column) (name : String) : Except Fault Column := do
  let (streams, c) := c.streams
  decode (c.spec name) c.format c.encoding c.rows (← streams)

end Column

end ColumnFile
