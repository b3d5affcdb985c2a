import ColumnFile.Codec
import ColumnFile.Column.Attributes
import ColumnFile.Column.Fixed
import ColumnFile.Column.Variable
import ColumnFile.Dictionary

/-! # Columns

A column of a stripe: its rows, and a stage for each of its streams that encodes the stream when it
is asked for and keeps the encoded form until the rows change.

* `Stage` — the codec of a stream and the encoded form.
* `Column` — the rows and the stages.
* `Column.new` — an empty column for an encoding choice.
* `Column.append`, `Column.appendNull`, `Column.appendToast`, `Column.setRows` — more rows.
* `Column.value`, `Column.range` — reading rows.
* `Column.encodeData`, `Column.encodeOffsets` — the encoded streams.
-/

namespace ColumnFile

/-- The **stage** that encodes a stream. -/
structure Stage where
  /-- The codec. -/
  codec : Codec := .plain
  /-- The choice in effect. -/
  choice : EncodingChoice := .none
  /-- The encoded form, once it was asked for. -/
  encoded : Option Bytes := none
deriving DecidableEq, Repr

namespace Stage

/-- The stage that leaves a stream as it is. -/
def plain : Stage := {}

/-- The stage that a writer uses for a choice. -/
def resolve (choice : EncodingChoice) (shape : StreamShape) (signed : Bool) : Stage :=
  let (codec, choice) := Codec.resolve choice shape signed
  { codec, choice }

/-- The stage that read a stream. -/
def read (codec : Codec) (choice : EncodingChoice) : Stage where
  codec := codec
  choice := choice

/-- Forgets the encoded form. -/
def forget (s : Stage) : Stage := { s with encoded := none }

/-- The encoded form of a stream that the codec makes from `raw`, and the stage that keeps it. -/
def encode (s : Stage) (raw : Bytes) (make : Unit → Except Fault Bytes) :
    Except Fault Bytes × Stage :=
  if s.codec.isPlain then (.ok raw, s)
  else match s.encoded with
    | some bs => (.ok bs, s)
    | none =>
      match make () with
      | .error e => (.error e, s)
      | .ok bs => (.ok bs, { s with encoded := some bs })

end Stage

/-- A **column** of a stripe. -/
inductive Column
  /-- A column of fixed width. -/
  | fixed (rows : FixedColumn) (stage : Stage) (attributes : Attributes)
  /-- A column of variable length. -/
  | varying (rows : VariableColumn) (stage offsetsStage : Stage) (attributes : Attributes)
deriving DecidableEq, Repr

namespace Column

/-! ## Construction -/

/-- The attribute by which a column remembers that a dictionary did not pay. -/
def fallbackAttribute : String := "dict.fallback"

/-- The encoding that takes the place of a dictionary that does not pay. -/
def fallback : EncodingChoice where
  kind := .zstd
  level := 0

/-- The choice for the values of a column: a dictionary is not tried again once it did not pay. -/
def choiceWith (attributes : Attributes) (choice : EncodingChoice) : EncodingChoice :=
  match attributes.get? fallbackAttribute with
  | some label =>
    if choice.kind = .dictionary then
      { kind := (Encoding.ofLabel? label).getD fallback.kind, level := 0 }
    else choice
  | none => choice

/-- The choice for offsets: by default they are stored as deltas. -/
def offsetsChoice (choice : EncodingChoice) : EncodingChoice :=
  if choice.kind = .default then { kind := .delta, level := 0 } else choice

/-- An empty column for an encoding choice, with the attributes of the column before it. -/
def new (spec : ColumnSpec) (format : StorageFormat) (choice offsets : EncodingChoice)
    (attributes : Attributes) : Except Fault Column := do
  spec.checkAlign
  if spec.kind.fixedWidth.isSome then
    let rows ← FixedColumn.new spec format
    let stage :=
      if choice.kind = .plain ∨ choice.kind = .default then Stage.plain
      else Stage.resolve choice (if spec.kind.isInteger then .integers else .scalars) true
    return fixed rows stage attributes
  else
    let rows ← VariableColumn.new spec format
    if choice.kind = .plain ∧ offsets.kind = .plain then
      return varying rows Stage.plain Stage.plain attributes
    return varying rows (Stage.resolve (choiceWith attributes choice) .values false)
      (Stage.resolve (offsetsChoice offsets) .integers false) attributes

/-! ## Description -/

/-- The kind of the values. -/
def kind : Column → Kind
  | fixed rows .. => rows.kind
  | varying rows .. => rows.kind

/-- The storage format. -/
def format : Column → StorageFormat
  | fixed rows .. => rows.format
  | varying rows .. => rows.format

/-- The null rows. -/
def nulls : Column → Nulls
  | fixed rows .. => rows.nulls
  | varying rows .. => rows.nulls

/-- How many rows there are. -/
def rows (c : Column) : Nat := c.nulls.rows

/-- How many rows are not null. -/
def nonNull (c : Column) : Nat := c.nulls.nonNull

/-- Whether some row is null. -/
def hasNull (c : Column) : Bool := c.nonNull < c.rows

/-- The stage of the data stream. -/
def stage : Column → Stage
  | fixed _ stage _ => stage
  | varying _ stage _ _ => stage

/-- The encoding of the data stream. -/
def choice (c : Column) : EncodingChoice := c.stage.choice

/-- The attributes. -/
def attributes : Column → Attributes
  | fixed _ _ attributes => attributes
  | varying _ _ _ attributes => attributes

/-- Gives an attribute a value. -/
def putAttribute (c : Column) (name value : String) : Column :=
  match c with
  | fixed rows stage attributes => fixed rows stage (attributes.put name value)
  | varying rows stage offsetsStage attributes =>
    varying rows stage offsetsStage (attributes.put name value)

/-- The alignment that the data stream needs: encoded streams need none. -/
def align (c : Column) : Nat :=
  if c.stage.codec.isPlain then
    match c with
    | fixed rows .. => rows.align
    | varying rows .. => rows.align
  else 1

/-- The data stream as it is before encoding. -/
def rawData : Column → Bytes
  | fixed rows .. => rows.data.toList
  | varying rows .. => rows.data.toList

/-- The encoding of the offsets stream and its length before encoding. -/
def offsetsEncoding : Column → Option (EncodingChoice × Nat)
  | fixed .. => none
  | varying rows _ offsetsStage _ =>
    some (offsetsStage.choice, VariableColumn.offsetWidth * rows.offsets.size)

/-- The rows that hold references to out-of-line values. -/
def toastRows : Column → Option Bitmap
  | fixed .. => none
  | varying rows .. => rows.toast

/-- The out-of-line values, joined. -/
def external : Column → Bytes
  | fixed .. => []
  | varying rows .. => rows.external.toList

/-- How many octets the rows take in memory. -/
def size : Column → Nat
  | fixed rows .. => rows.size
  | varying rows .. => rows.size

/-- The description of the column under a name. -/
def spec (c : Column) (name : String) : ColumnSpec where
  name := name
  kind := c.kind
  align := c.align

/-- The encodings of a column whose streams were encoded. -/
def encoding (c : Column) : ColumnEncoding where
  data := c.choice
  length := c.rawData.length
  offsets := (c.offsetsEncoding.map (·.1)).getD .none
  offsetsLength := (c.offsetsEncoding.map (·.2)).getD 0

/-! ## Growth -/

/-- Changes the rows of a column of variable length, which forgets the encoded streams. -/
def changeVarying (stage offsetsStage : Stage) (attributes : Attributes)
    (changed : Attempt VariableColumn) : Attempt Column :=
  (changed.1, varying changed.2 stage.forget offsetsStage.forget attributes)

/-- One more row that is not null, given as stored. -/
def append (c : Column) (value : Bytes) : Attempt Column :=
  match c with
  | fixed rows stage attributes =>
    let (result, rows) := rows.append value
    (result, fixed rows stage.forget attributes)
  | varying rows stage offsetsStage attributes =>
    changeVarying stage offsetsStage attributes (rows.append value)

/-- One more null row. -/
def appendNull (c : Column) : Attempt Column :=
  match c with
  | fixed rows stage attributes => (.ok (), fixed rows.appendNull stage.forget attributes)
  | varying rows stage offsetsStage attributes =>
    changeVarying stage offsetsStage attributes rows.appendNull

/-- One more row whose value is stored out of line, which only columns of variable length do. -/
def appendToast (c : Column) (value : Bytes) : Attempt Column :=
  match c with
  | fixed .. => (.error .outOfLineUnsupported, c)
  | varying rows stage offsetsStage attributes =>
    changeVarying stage offsetsStage attributes (rows.appendToast value)

/-- One more row that holds a datum of the kind of the column, or null. -/
def appendDatum (c : Column) (d : Datum) : Attempt Column :=
  if d.isNull then c.appendNull
  else match d.stored c.kind with
    | .error e => (.error e, c)
    | .ok value => c.append value

/-- Adds null rows up to a count. -/
def setRows (c : Column) (count : Nat) : Attempt Column :=
  match c with
  | fixed rows stage attributes =>
    if count < rows.nulls.rows then
      (.error .shrinkingRows, fixed rows stage.forget attributes)
    else (.ok (), fixed (rows.appendNulls (count - rows.nulls.rows)) stage.forget attributes)
  | varying rows stage offsetsStage attributes =>
    changeVarying stage offsetsStage attributes <|
      if count < rows.nulls.rows then (.error .shrinkingRows, rows)
      else rows.appendNulls (count - rows.nulls.rows)

/-! ## Reading -/

/-- The stored value of a row, or none if it is null. -/
def value (c : Column) (row : Nat) : Except Fault (Option Bytes) :=
  match c with
  | fixed rows .. => rows.value row
  | varying rows .. => rows.value row

/-- The `len` stored values from the `start`-th on, joined; null rows are left out. -/
def range (c : Column) (start len : Nat) : Except Fault Bytes :=
  match c with
  | fixed rows .. => rows.range start len
  | varying rows .. => rows.range start len

/-! ## Encoding -/

/-- A dictionary pays when at most four fifths of the values are distinct. -/
def dictionaryPays (values : List Bytes) : Bool :=
  5 * (Dictionary.entriesOf values).length ≤ 4 * values.length

/-- The stage and the attributes in effect when the values of a column are encoded: a dictionary
that does not pay gives way for good. -/
def settle (rows : VariableColumn) (stage : Stage) (attributes : Attributes) :
    Stage × Attributes :=
  if stage.codec = .dictionary ∧ stage.encoded.isNone ∧ !dictionaryPays rows.values then
    (Stage.resolve fallback .values false,
      attributes.put fallbackAttribute fallback.kind.label)
  else (stage, attributes)

variable [BlockLibrary]

/-- The encoded values of a column. -/
def encodeValues (rows : VariableColumn) : Codec → Except Fault Bytes
  | .dictionary => .ok (Dictionary.encode rows.values)
  | .block kind level => Codec.compressBlock kind level rows.data.toList
  | _ => .ok rows.data.toList

/-- The encoded data stream, and the column that keeps it. -/
def encodeData (c : Column) : Except Fault Bytes × Column :=
  match c with
  | fixed rows stage attributes =>
    let data := rows.data.toList
    let (result, stage) := stage.encode data fun _ => stage.codec.encodeInts rows.ints data
    (result, fixed rows stage attributes)
  | varying rows stage offsetsStage attributes =>
    let (stage, attributes) := settle rows stage attributes
    let (result, stage) := stage.encode rows.data.toList fun _ => encodeValues rows stage.codec
    (result, varying rows stage offsetsStage attributes)

/-- The encoded offsets stream, if there is one, and the column that keeps it. -/
def encodeOffsets (c : Column) : Except Fault (Option Bytes) × Column :=
  match c with
  | fixed .. => (.ok none, c)
  | varying rows stage offsetsStage attributes =>
    let (result, offsetsStage) := offsetsStage.encode rows.offsetBytes fun _ =>
      offsetsStage.codec.encodeInts rows.offsetInts rows.offsetBytes
    (result.map some, varying rows stage offsetsStage attributes)

end Column

end ColumnFile
