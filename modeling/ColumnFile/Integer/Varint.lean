import ColumnFile.Bytes
import ColumnFile.Fault
import ColumnFile.Integer.Zigzag

/-! # Variable-length integers

Unsigned integers in groups of seven bits, the lowest group first; every byte but the last has its
high bit set. Signed integers are written by their zigzag numbers.

* `Varint.digits`, `Varint.readDigits` — natural numbers of any size.
* `Varint.encode`, `Varint.read` — unsigned 64-bit integers.
* `Varint.encodeSigned`, `Varint.readSigned` — signed 64-bit integers.

A reader returns the bytes that it left over.
-/

namespace ColumnFile

namespace Varint

/-- The groups of a natural number, the lowest first. -/
def digits (n : Nat) : Bytes :=
  if n < 128 then [UInt8.ofNat n] else UInt8.ofNat (n % 128 + 128) :: digits (n / 128)

/-- Reads the groups of a natural number, at most `limit` of them. -/
def readDigits : (limit : Nat) → Bytes → Except Fault (Nat × Bytes)
  | _, [] => .error .varintTruncated
  | 0, _ :: _ => .error .varintTooLong
  | limit + 1, b :: rest =>
    if b < 128 then .ok (b.toNat, rest)
    else do
      let (high, rest) ← readDigits limit rest
      return (b.toNat % 128 + 128 * high, rest)

/-- The most bytes that a 64-bit integer takes. -/
def maxLength : Nat := 10

/-- The bytes of an unsigned integer. -/
def encode (u : UInt64) : Bytes := digits u.toNat

/-- Reads an unsigned integer; what lies past 64 bits is dropped. -/
def read (bs : Bytes) : Except Fault (UInt64 × Bytes) := do
  let (n, rest) ← readDigits maxLength bs
  return (UInt64.ofNat n, rest)

/-- The bytes of a signed integer. -/
def encodeSigned (v : Int64) : Bytes := encode (Zigzag.encode v)

/-- Reads a signed integer. -/
def readSigned (bs : Bytes) : Except Fault (Int64 × Bytes) := do
  let (u, rest) ← read bs
  return (Zigzag.decode u, rest)

end Varint

end ColumnFile
