import ColumnFile.Datum.Basic
import ColumnFile.Fault

/-! # Data as columns store them

A datum of a fixed-width kind is stored as its little-endian octets, a byte string as it is.

* `Bytes.ofInt64`, `Bytes.toInt64` — integers of up to eight octets, sign-extended.
* `Datum.stored` — the octets of a datum of a kind.
* `Datum.ofStored` — the datum of stored octets.
-/

namespace ColumnFile

namespace Bytes

/-- The low `width` octets of an integer, little-endian. -/
def ofInt64 (width : Nat) (v : Int64) : Bytes := ofNatLE width v.toUInt64.toNat

@[simp] theorem length_ofInt64 (width : Nat) (v : Int64) : (ofInt64 width v).length = width := by
  simp [ofInt64]

/-- The little-endian integer of at most eight octets, sign-extended. -/
def toInt64 (bs : Bytes) : Int64 :=
  Int64.ofInt (Int.bmod (toNatLE bs) (1 <<< (8 * bs.length)))

end Bytes

namespace Datum

/-- The octets that a column of a kind stores for a datum that is not null. -/
def stored (kind : Kind) (d : Datum) : Except Fault Bytes :=
  match kind, d with
  | .boolean, bool v => .ok [v.toUInt8]
  | .byte, int8 v => .ok (Bytes.ofNatLE 1 v.toUInt8.toNat)
  | .short, int16 v => .ok (Bytes.ofNatLE 2 v.toUInt16.toNat)
  | .int, int32 v => .ok (Bytes.ofNatLE 4 v.toUInt32.toNat)
  | .long, int64 v => .ok (Bytes.ofNatLE 8 v.toUInt64.toNat)
  | .float, float32 bits => .ok (Bytes.ofNatLE 4 bits.toNat)
  | .double, float64 bits => .ok (Bytes.ofNatLE 8 bits.toNat)
  | .string, bytes v => .ok v
  | .bytes, bytes v => .ok v
  | kind, d => .error (.datumKind d kind)

/-- The datum that octets of a column of a kind stand for. -/
def ofStored (kind : Kind) (bs : Bytes) : Except Fault Datum :=
  if kind.fixedWidth.any (· ≠ bs.length) then .error (.datumLength bs.length kind)
  else
    let n := Bytes.toNatLE bs
    .ok <| match kind with
      | .boolean => bool (n ≠ 0)
      | .byte => int8 (Int8.ofNat n)
      | .short => int16 (Int16.ofNat n)
      | .int => int32 (Int32.ofNat n)
      | .long => int64 (Int64.ofNat n)
      | .float => float32 (UInt32.ofNat n)
      | .double => float64 (UInt64.ofNat n)
      | .string | .bytes => bytes bs

end Datum

end ColumnFile
