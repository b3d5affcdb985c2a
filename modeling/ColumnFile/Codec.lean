import ColumnFile.Bitmap
import ColumnFile.Block.Basic
import ColumnFile.Integer.Delta
import ColumnFile.RunLength.Decoder
import ColumnFile.RunLength.Encoder
import ColumnFile.Schema.Encoding

/-! # Codecs

The transformation of a stream that an encoding stands for. Some encodings make sense for some
streams only; a writer falls back to storing the others plainly, a reader refuses what it cannot
read.

* `BlockKind` — the kinds of block compression.
* `BlockLibrary` — a compressor for each kind.
* `StreamShape` — what a stream consists of.
* `Codec` — the transformation.
* `Codec.resolve` — the codec that a writer uses for a choice.
* `Codec.forReading` — the codec that reads a recorded choice.
* `Codec.encodeInts`, `Codec.decodeInts`, `Codec.decodeBytes` — applying it.
-/

namespace ColumnFile

/-- The **kinds** of block compression. -/
inductive BlockKind
  | zstd
  | zlib
  | lz4
deriving DecidableEq, Repr, Inhabited

/-- A **library** of block compressors. -/
class BlockLibrary where
  /-- The compressor of a kind. -/
  compressor : BlockKind → BlockCompressor

namespace BlockKind

/-- The compressor of a kind. -/
def compressor [BlockLibrary] (kind : BlockKind) : BlockCompressor := BlockLibrary.compressor kind

/-- The block compressor that an encoding names. -/
def ofEncoding? : Encoding → Option BlockKind
  | .zstd => some zstd
  | .zlib => some zlib
  | .lz4 => some lz4
  | _ => none

@[simp] theorem isSome_ofEncoding? (e : Encoding) : (ofEncoding? e).isSome = e.isCompression := by
  cases e <;> rfl

end BlockKind

/-- What the bytes of a stream are made of. -/
inductive StreamShape
  /-- Integers of one width. -/
  | integers
  /-- Values of one width that are no integers. -/
  | scalars
  /-- Values of any length, joined. -/
  | values
deriving DecidableEq, Repr, Inhabited

/-- The transformation of a stream. -/
inductive Codec
  | plain
  | runLength (signed : Bool)
  | delta
  | dictionary
  | block (kind : BlockKind) (level : Int32)
deriving DecidableEq, Repr, Inhabited

namespace Codec

/-- Whether the stream is stored as it is. -/
def isPlain (c : Codec) : Bool := c == plain

/-- The codec of an encoding for a shape, if it has one. -/
def ofEncoding? (kind : Encoding) (level : Int32) (shape : StreamShape) (signed : Bool) :
    Option Codec :=
  match kind, shape with
  | .plain, _ => some plain
  | .runLength, .integers => some (runLength signed)
  | .delta, .integers => some delta
  | .dictionary, .values => some dictionary
  | kind, _ => (BlockKind.ofEncoding? kind).map (block · level)

/-- The codec that a writer uses for a choice, and the choice in effect. The default is Zstandard
for joined values and no encoding for others; an encoding without a codec for the shape gives way to
no encoding. -/
def resolve (choice : EncodingChoice) (shape : StreamShape) (signed : Bool) :
    Codec × EncodingChoice :=
  let kind :=
    match choice.kind, shape with
    | .default, .values => .zstd
    | .default, _ => .plain
    | kind, _ => kind
  let level := if kind = choice.kind then choice.level else 0
  match ofEncoding? kind level shape signed with
  | some codec => (codec, { kind, level })
  | none => (plain, .none)

/-- The codec that reads a recorded choice. -/
def forReading (choice : EncodingChoice) (signed : Bool) : Except Fault Codec :=
  match choice.kind with
  | .plain => .ok plain
  | .runLength => .ok (runLength signed)
  | .delta => .ok delta
  | .dictionary => .ok dictionary
  | .zstd => .ok (block .zstd choice.level)
  | .zlib => .ok (block .zlib choice.level)
  | .lz4 => .ok (block .lz4 choice.level)
  | .default => .error (.unresolvedEncoding .default)

variable [BlockLibrary]

/-- The block-compressed form of a stream; the empty stream stays empty. -/
def compressBlock (kind : BlockKind) (level : Int32) (raw : Bytes) : Except Fault Bytes :=
  if raw.isEmpty then .ok [] else kind.compressor.compressAll raw level

/-- Encodes a stream of integers, given as integers and as their plain bytes. -/
def encodeInts (c : Codec) (values : List Int64) (raw : Bytes) : Except Fault Bytes :=
  match c with
  | plain => .ok raw
  | runLength signed => .ok (RunEncoder.encodeAll signed values)
  | delta => .ok (Delta.encode values)
  | block kind level => compressBlock kind level raw
  | dictionary => .error .dictionaryOnIntegers

/-- Decodes `count` integers. A run-length stream may hold more of them; a delta stream may not. -/
def decodeInts (c : Codec) (src : Bytes) (count : Nat) : Except Fault (List Int64) := do
  let values ←
    match c with
    | runLength signed => do
      let (values, _) ← RunDecoder.take count (RunDecoder.ofBytes signed src)
      return values
    | delta => Delta.decode src
    | _ => throw .notIntegerCodec
  if values.length ≠ count then throw (.integerCount values.length count)
  return values

/-- Decodes the integers of the rows that are not null. -/
def decodeNotNull (c : Codec) (src : Bytes) (notNull : Bitmap) : Except Fault (List Int64) :=
  match c with
  | runLength signed => do
    let (values, _) ← (RunDecoder.ofBytes signed src).takeSet notNull 0 notNull.len
    return values
  | _ => c.decodeInts src notNull.count

/-- Decodes a plain or block-compressed stream of `length` bytes. -/
def decodeBytes (c : Codec) (src : Bytes) (length : Nat) : Except Fault Bytes :=
  match c with
  | plain => if src.length ≠ length then .error .unencodedLength else .ok src
  | block kind _ =>
    if length = 0 then .ok []
    else
      let (result, out) := kind.compressor.decompressInto src length (Buffer.ofCapacity length)
      result.map fun _ => out.committed
  | _ => .error .notByteCodec

end Codec

end ColumnFile
