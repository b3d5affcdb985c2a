import ColumnFile.Bytes

/-! # MessagePack values

The values of the MessagePack format. Numbers remember the family they were written in, because a
reader tells some of them apart, and texts are kept as octets, because a reader may skip a text that
is not well-formed.

* `Value` — a value.
* `Value.ofInt` — an integer, in the family that a writer chooses.
* `Value.ofOctet` — an octet of a byte string that stands for a list of numbers.
* `Value.fits` — whether a value is nested no deeper than some levels.
-/

namespace ColumnFile.MessagePack

/-- A **value**. -/
inductive Value
  | nil
  | bool (v : Bool)
  /-- A number of the unsigned family. -/
  | nat (n : Nat)
  /-- A number of the signed family. -/
  | int (v : Int)
  /-- A single-precision number, by its bit pattern. -/
  | single (bits : UInt32)
  /-- A double-precision number, by its bit pattern. -/
  | double (bits : UInt64)
  /-- A text, by its octets. -/
  | text (bs : Bytes)
  /-- A byte string. -/
  | binary (bs : Bytes)
  | array (items : List Value)
  | map (entries : List (Value × Value))
  /-- An extension: its tag and its octets. -/
  | extension (tag : UInt8) (bs : Bytes)
deriving Inhabited

namespace Value

/-- An integer: those that are not negative belong to the unsigned family. -/
def ofInt (v : Int) : Value := if 0 ≤ v then nat v.toNat else int v

/-- An octet of a byte string that is read as a list of numbers. It counts among the signed family,
because it is a number only and never stands for a name by its place. -/
def ofOctet (b : UInt8) : Value := int b.toNat

/-- Whether arrays, maps and extensions are nested no deeper than `levels`. -/
def fits : (levels : Nat) → Value → Bool
  | 0, array _ | 0, map _ | 0, extension _ _ => false
  | levels + 1, array items => items.all (fits levels)
  | levels + 1, map entries => entries.all fun e => fits levels e.1 && fits levels e.2
  | _, _ => true

end Value

end ColumnFile.MessagePack
