import ColumnFile.Bytes
import ColumnFile.Fault

/-! # References to out-of-line values

A value that is stored out of line leaves a reference in its column: where its octets begin among
the out-of-line octets of the column, and how many there are.

* `ToastRef` — a reference.
* `ToastRef.encode`, `ToastRef.decode` — its sixteen octets.
-/

namespace ColumnFile

/-- A **reference** to an out-of-line value. -/
structure ToastRef where
  /-- Where the value begins. -/
  offset : UInt64
  /-- How long it is. -/
  length : UInt64
deriving DecidableEq, Repr

namespace ToastRef

/-- How many octets a reference takes. -/
def size : Nat := 16

/-- The octets of a reference. -/
def encode (r : ToastRef) : Bytes :=
  Bytes.ofNatLE 8 r.offset.toNat ++ Bytes.ofNatLE 8 r.length.toNat

@[simp] theorem length_encode (r : ToastRef) : r.encode.length = size := by
  simp [encode, size]

/-- The reference of sixteen octets. -/
def decode (bs : Bytes) : Except Fault ToastRef :=
  if bs.length ≠ size then .error (.toastRefLength bs.length)
  else .ok
    { offset := UInt64.ofNat (Bytes.toNatLE (bs.take 8))
      length := UInt64.ofNat (Bytes.toNatLE (bs.drop 8)) }

end ToastRef

end ColumnFile
