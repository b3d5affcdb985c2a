/-! # Stream encodings

The encodings that a stream of a column can be stored in.

* `Encoding` — the tag recorded for every stream.
* `EncodingChoice` — an encoding and its compression level.
* `ColumnEncoding` — how the streams of a column were encoded.
-/

namespace ColumnFile

/-- The **encoding** of a stream. -/
inductive Encoding
  /-- Chosen by the kind of the column when the column is built; never recorded. -/
  | default
  | plain
  | runLength
  | delta
  | dictionary
  | zstd
  | zlib
  | lz4
deriving DecidableEq, Repr, Inhabited

namespace Encoding

/-- Every encoding, in the order of declaration. -/
def all : List Encoding := [default, plain, runLength, delta, dictionary, zstd, zlib, lz4]

/-- The name under which an encoding is recorded. -/
def name : Encoding → String
  | default => "Default"
  | plain => "NoEncoded"
  | runLength => "RleV2"
  | delta => "DirectDelta"
  | dictionary => "Dictionary"
  | zstd => "CompressZstd"
  | zlib => "CompressZlib"
  | lz4 => "CompressLz4"

/-- The name under which an encoding is configured and shown. -/
def label : Encoding → String
  | default => "default"
  | plain => "none"
  | runLength => "rle"
  | delta => "delta"
  | dictionary => "dict"
  | zstd => "zstd"
  | zlib => "zlib"
  | lz4 => "lz4"

/-- The encoding configured by a label. -/
def ofLabel? (s : String) : Option Encoding := all.find? fun e => e.label == s

@[simp] theorem ofLabel?_label (e : Encoding) : ofLabel? e.label = some e := by
  cases e <;> rfl

/-- Whether the encoding is a block compression. -/
def isCompression : Encoding → Bool
  | zstd | zlib | lz4 => true
  | _ => false

end Encoding

/-- An encoding and its compression level. -/
structure EncodingChoice where
  /-- The encoding. -/
  kind : Encoding := .default
  /-- The compression level; encodings that are no compression carry it along unused. -/
  level : Int32 := 0
deriving DecidableEq, Repr, Inhabited

/-- No encoding at all. -/
def EncodingChoice.none : EncodingChoice where
  kind := .plain
  level := 0

/-- How the streams of one column were encoded, as a stripe records it. -/
structure ColumnEncoding where
  /-- The encoding of the data stream. -/
  data : EncodingChoice := .none
  /-- The unencoded length of the data stream. -/
  length : Nat := 0
  /-- The encoding of the offsets stream. -/
  offsets : EncodingChoice := .none
  /-- The unencoded length of the offsets stream. -/
  offsetsLength : Nat := 0
deriving DecidableEq, Repr, Inhabited

end ColumnFile
