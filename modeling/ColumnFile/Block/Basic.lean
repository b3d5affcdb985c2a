import ColumnFile.Buffer

/-! # Block compression

Compressors of whole byte strings. A compressed string does not record how long it was; callers keep
the length and offer a destination of that size.

* `BlockCompressor` — a pair of transformations into a destination slice.
* `BlockCompressor.ofFormat` — the compressor of a format given by an encoder and a decoder.
* `BlockCompressor.compressAll` — a compressed string.
* `BlockCompressor.decompressInto` — appends a decompressed string to a buffer; `expandInto` — once
  there is room. -/

namespace ColumnFile

/-- A **block compressor**. Both directions work on a destination slice, which they may overwrite
whether they succeed or not, and return how many bytes they put at its start. -/
structure BlockCompressor where
  /-- The name, as faults give it. -/
  name : String
  /-- The size that suffices for a compressed string of a given length. -/
  bound : Nat → Nat
  /-- Compresses `src` at a level; returns the count and the slice. -/
  compress : (dst src : Bytes) → (level : Int32) → Except Fault Nat × Bytes
  /-- Decompresses `src`; returns the count and the slice. -/
  decompress : (dst src : Bytes) → Except Fault Nat × Bytes

namespace BlockCompressor

/-- Puts a string at the start of a slice, if it fits. -/
def fill (tooSmall : Fault) (dst out : Bytes) : Except Fault Nat × Bytes :=
  if dst.length < out.length then (.error tooSmall, dst)
  else (.ok out.length, out ++ dst.drop out.length)

/-- The compressor of a format. The decoder is told how many bytes it may make; `tooSmall` is what
faults say of a destination that is too small. -/
def ofFormat (name : String) (bound : Nat → Nat) (tooSmall : Option String)
    (encode : Bytes → Bytes) (decode : (limit : Nat) → Bytes → Except (Option String) Bytes) :
    BlockCompressor where
  name := name
  bound := bound
  compress dst src _ := fill (.compressor name "compress" tooSmall) dst (encode src)
  decompress dst src :=
    match decode dst.length src with
    | .error detail => (.error (.compressor name "decompress" detail), dst)
    | .ok out => fill (.compressor name "decompress" tooSmall) dst out

/-- The detail of a destination that is too small. -/
def destinationTooSmall : String := "destination too small"

/-- The compressor that keeps every string as it is. -/
def none : BlockCompressor :=
  ofFormat "none" id (some destinationTooSmall) id fun _ src => .ok src

/-- The compressed form of a string. -/
def compressAll (c : BlockCompressor) (src : Bytes) (level : Int32) : Except Fault Bytes :=
  let (result, dst) := c.compress (Bytes.zeros (c.bound src.length)) src level
  result.map dst.take

/-- Decompresses `src` into the memory behind what a buffer has committed, in which there is room
for `length` bytes, and commits them, provided that there are exactly as many. On a fault nothing is
committed. -/
def expandInto (c : BlockCompressor) (src : Bytes) (length : Nat) (out : Buffer) :
    Except Fault Unit × Buffer :=
  let (result, slice) := c.decompress (out.tail.take length) src
  let out := out.put out.used (slice.take length)
  match result with
  | .error e => (.error e, out)
  | .ok n =>
    if n ≠ length then
      (.error (.compressor c.name "decompress" (some s!"expanded to {n} bytes, expected {length}")),
        out)
    else match out.commit n with
      | .error e => (.error e, out)
      | .ok out => (.ok (), out)

/-- Appends the decompressed form of `src` to a buffer, provided that it has exactly `length`
bytes. -/
def decompressInto (c : BlockCompressor) (src : Bytes) (length : Nat) (out : Buffer) :
    Except Fault Unit × Buffer :=
  c.expandInto src length (out.reserve length)

end BlockCompressor

end ColumnFile
