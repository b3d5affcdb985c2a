import ColumnFile.Buffer.Machine
import ColumnFile.Codec
import ColumnFile.Dictionary

/-! # Codecs on a machine

Decoding streams once more, with memory that is asked for before it is filled: as much as a file
says that a stream takes, which may be anything. What is there of the stream is read through checks
of its own.

* `Machine.decompressInto` — a decompressed string behind what a buffer holds.
* `Machine.decodeBytes` — plain and block-compressed streams.
* `Machine.decodeInts`, `Machine.decodeNotNull` — streams of integers; `Codec.integersAsked` is the
  memory for them.
* `Machine.expandInto` — the values of a dictionary stream.
-/

namespace ColumnFile

/-- The octets that are asked for before integers are read: of runs, for as many integers as are
expected; of distances, for as many as the stream announces. -/
def Codec.integersAsked (codec : Codec) (src : Bytes) (expected : Nat) : Nat :=
  match codec with
  | .runLength _ => 8 * expected
  | .delta => 8 * Delta.announced src
  | _ => 0

namespace Machine

/-- Appends the decompressed form of `src` to a buffer, provided that it has exactly `length`
bytes. -/
def decompressInto (c : BlockCompressor) (src : Bytes) (length : Nat) (out : Buffer) :
    Except Stop (Attempt Buffer) := do
  let out ← reserve out length
  within out.available 0 length
  return c.expandInto src length out

/-! ## Dictionaries -/

/-- Adds the values of some codes to a buffer, up to the first that stands for none. -/
def joinInto (p : Dictionary.Parts) : List Int64 → Buffer → Except Stop Buffer
  | [], out => .ok out
  | code :: rest, out => do
    let value ← (p.value code).mapError .fault
    let out ← append out value
    joinInto p rest out

/-- Adds the values of a stream of codes to a buffer, up to the first failure. -/
def joinRunsInto (p : Dictionary.Parts) (codes : Bytes) (out : Buffer) : Except Stop Buffer :=
  if codes = [] then .ok out
  else match _h : Run.read false codes with
    | .error e => .error (.fault e)
    | .ok (run, rest) => do
      let out ← joinInto p run out
      joinRunsInto p rest out
termination_by codes.length
decreasing_by exact Run.read_length _h

/-- Adds the values of a dictionary stream to a buffer. -/
def expandInto (bs : Bytes) (out : Buffer) : Except Stop Buffer := do
  let p ← (Dictionary.parse bs).mapError .fault
  joinRunsInto p p.codes out

/-! ## Streams -/

variable [BlockLibrary]

/-- Decodes a plain or block-compressed stream of `length` bytes; the memory for them is asked for
first. -/
def decodeBytes (codec : Codec) (src : Bytes) (length : Nat) : Except Stop Bytes := do
  allocate length
  match codec with
  | .plain =>
    if src.length ≠ length then throw (.fault .unencodedLength)
    let out ← append (Buffer.ofCapacity length) src
    return out.committed
  | .block kind _ =>
    if length = 0 then return []
    let (result, out) ← decompressInto kind.compressor src length (Buffer.ofCapacity length)
    (result.map fun _ => out.committed).mapError .fault
  | _ => throw (.fault .notByteCodec)

/-- Decodes `count` integers. -/
def decodeInts (codec : Codec) (src : Bytes) (count : Nat) : Except Stop (List Int64) := do
  allocate (codec.integersAsked src count)
  (codec.decodeInts src count).mapError .fault

/-- Decodes the integers of the rows that are not null. -/
def decodeNotNull (codec : Codec) (src : Bytes) (notNull : Bitmap) : Except Stop (List Int64) := do
  allocate (codec.integersAsked src (notNull.countRange 0 notNull.len))
  (codec.decodeNotNull src notNull).mapError .fault

end Machine

end ColumnFile
