import ColumnFile.Block.Basic

/-! # LZ4 blocks

A block is a list of sequences: a token, literal bytes, and a copy of earlier output by distance and
length. The last sequence has literals only. Compression writes a single sequence; decompression
reads every block.

* `Lz4.encode`, `Lz4.decode` — the two directions.
* `Lz4.compressor` — the block compressor.
-/

namespace ColumnFile

namespace Lz4

/-- The bytes that continue a length past fifteen: as many full bytes as fit, and the rest. -/
def extendLength (n : Nat) : Bytes :=
  List.replicate (n / 255) 255 ++ [UInt8.ofNat (n % 255)]

/-- The block that holds a byte string as literals. -/
def encode (bs : Bytes) : Bytes :=
  if bs.length < 15 then UInt8.ofNat (bs.length * 16) :: bs
  else 0xf0 :: extendLength (bs.length - 15) ++ bs

/-- Reads the bytes that continue a length. -/
def readLength (n : Nat) : Bytes → Option (Nat × Bytes)
  | [] => none
  | b :: rest => if b = 255 then readLength (n + 255) rest else some (n + b.toNat, rest)

/-- Reads a length whose first four bits are in the token. -/
def readNibble (n : Nat) (bs : Bytes) : Option (Nat × Bytes) :=
  if n = 15 then readLength 15 bs else some (n, bs)

/-- The shortest copy. -/
def minCopy : Nat := 4

/-- Decodes sequences; `made` is the output, the last byte first, and `room` how many more bytes
there is room for. Every sequence takes bytes, so `fuel` of their count is enough. -/
def sequences : (fuel room : Nat) → (made bs : Bytes) → Option Bytes
  | 0, _, _, _ => none
  | _ + 1, _, _, [] => none
  | fuel + 1, room, made, token :: bs => do
    let (literals, bs) ← readNibble (token.toNat / 16) bs
    if bs.length < literals ∨ room < literals then none
    let made := (bs.take literals).reverse ++ made
    let room := room - literals
    match bs.drop literals with
    | [] => some made.reverse
    | [_] => none
    | low :: high :: bs =>
      let distance := low.toNat + 256 * high.toNat
      let (count, bs) ← readNibble (token.toNat % 16) bs
      let count := count + minCopy
      if distance = 0 ∨ made.length < distance ∨ room < count then none
      sequences fuel (room - count) (Bytes.repeatBack distance count made) bs

/-- The byte string of a block, if it has at most `limit` bytes. -/
def decode (limit : Nat) (bs : Bytes) : Option Bytes := sequences (bs.length + 1) limit [] bs

/-- The size that suffices for a compressed string. -/
def bound (n : Nat) : Nat := 20 + n * 110 / 100

/-- Compresses into a slice, which has to be large enough for every string of this length. -/
def compress (dst src : Bytes) : Except Fault Nat × Bytes :=
  let tooSmall : Fault := .compressor "lz4" "compress" none
  if dst.length < bound src.length then (.error tooSmall, dst)
  else BlockCompressor.fill tooSmall dst (encode src)

/-- The LZ4 compressor. -/
def compressor : BlockCompressor :=
  let format := BlockCompressor.ofFormat "lz4" bound none encode fun limit src =>
    match decode limit src with
    | some out => .ok out
    | none => .error none
  { format with compress := fun dst src _ => compress dst src }

end Lz4

end ColumnFile
