import ColumnFile.Block.Basic
import ColumnFile.Block.Inflate

/-! # The zlib format

Deflated data between a two-byte head and the Adler-32 checksum of what it stands for. Compression
stores the bytes as they are; decompression reads every deflated form.

* `Zlib.adler32` — the checksum.
* `Zlib.encode`, `Zlib.decode` — the two directions.
* `Zlib.compressor` — the block compressor.
-/

namespace ColumnFile

namespace Zlib

/-- The Adler-32 checksum: the sum of the bytes and the sum of those sums. -/
def adler32 (bs : Bytes) : Nat :=
  let (a, b) := bs.foldl
    (fun (a, b) x =>
      let a := (a + x.toNat) % 65521
      (a, (b + a) % 65521))
    (1, 0)
  b * 65536 + a

/-- The most bytes of a stored block. -/
def maxStored : Nat := 65535

/-- One stored block. -/
def storedBlock (last : Bool) (bs : Bytes) : Bytes :=
  UInt8.ofNat last.toNat :: Bytes.ofNatLE 2 bs.length ++ Bytes.ofNatLE 2
    (maxStored - bs.length) ++ bs

/-- The stored blocks of a byte string. -/
def storedBlocks (bs : Bytes) : Bytes :=
  if bs.length ≤ maxStored then storedBlock true bs
  else storedBlock false (bs.take maxStored) ++ storedBlocks (bs.drop maxStored)
termination_by bs.length
decreasing_by
  have h : 0 < maxStored := by decide
  simp only [List.length_drop]
  omega

/-- The zlib form of a byte string. -/
def encode (bs : Bytes) : Bytes :=
  [0x78, 0x01] ++ storedBlocks bs ++ Bytes.ofNatBE 4 (adler32 bs)

/-- Why decoding stops before the end, as a fault gives it. -/
def detail : Inflate.Stop → Option String
  | .exhausted => some "truncated stream or destination too small"
  | .invalid => none

/-- The head names the method, its window and no dictionary, and is a multiple of 31. -/
def validHead (method flags : UInt8) : Bool :=
  method.toNat % 16 = 8 && method.toNat / 16 ≤ 7 && !flags.toNat.testBit 5 &&
    (method.toNat * 256 + flags.toNat) % 31 = 0

/-- Decodes behind the head: the blocks and the checksum. -/
def decodeBody (limit : Nat) (body : Bytes) : Except Inflate.Stop Bytes := do
  let bits := Inflate.Bits.ofBytes body
  let (bits, o) ← Inflate.blocks bits.length bits { room := limit }
  let (sum, _) ← Inflate.readMany 8 4 (Inflate.alignBits bits)
  let out := o.made.reverse
  if Bytes.toNatBE (sum.map UInt8.ofNat) ≠ adler32 out then throw .invalid
  return out

/-- The byte string of a zlib form, if it has at most `limit` bytes; what follows it is ignored. -/
def decode (limit : Nat) : Bytes → Except Inflate.Stop Bytes
  | method :: flags :: body =>
    if validHead method flags then decodeBody limit body else .error .invalid
  | _ => .error .exhausted

/-- The size that suffices for a compressed string. -/
def bound (n : Nat) : Nat := n + n / 16 + 1024

/-- The zlib compressor. -/
def compressor : BlockCompressor :=
  BlockCompressor.ofFormat "zlib" bound (some BlockCompressor.destinationTooSmall) encode
    fun limit src => (decode limit src).mapError detail

end Zlib

end ColumnFile
