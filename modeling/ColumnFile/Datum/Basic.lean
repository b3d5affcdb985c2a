import ColumnFile.Text.Utf8

/-! # Data

The values of the rows that go in and come out. Floating-point numbers are kept as their IEEE 754
bit patterns, so that every value, signed zeros and payloads of non-numbers included, is stored and
returned as it is.

* `Datum` — a value of a row, or null.
* `Row` — the data of one row, in column order.
-/

namespace ColumnFile

/-- A **datum**: one value of a row. -/
inductive Datum
  | null
  | bool (v : Bool)
  | int8 (v : Int8)
  | int16 (v : Int16)
  | int32 (v : Int32)
  | int64 (v : Int64)
  /-- A single-precision number, by its bit pattern. -/
  | float32 (bits : UInt32)
  /-- A double-precision number, by its bit pattern. -/
  | float64 (bits : UInt64)
  | bytes (v : Bytes)
deriving DecidableEq, Inhabited

/-- A **row**: one datum for each column. -/
abbrev Row : Type := List Datum

namespace Datum

/-- Whether the datum is null. -/
def isNull : Datum → Bool
  | null => true
  | _ => false

/-- The datum that holds the octets of a text. -/
def ofString (s : String) : Datum := .bytes (Bytes.ofString s)

/-- The integer that a Boolean or integer datum stands for. -/
def toInt64? : Datum → Option Int64
  | bool v => some (if v then 1 else 0)
  | int8 v => some v.toInt64
  | int16 v => some v.toInt64
  | int32 v => some v.toInt64
  | int64 v => some v
  | _ => none

/-- The octets of a byte-string datum. -/
def toBytes? : Datum → Option Bytes
  | bytes v => some v
  | _ => none

end Datum

end ColumnFile
