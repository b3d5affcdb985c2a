import ColumnFile.Datum.Number

/-! # Ranges of values

The least and the greatest of some data. Integers, numbers with a fraction and byte strings have an
order each; what is no number is greater than every number.

* `ValueRange` — a range.
* `ValueRange.of` — the range of a datum.
* `ValueRange.widen` — the range that covers two.
* `ValueRange.mayContain` — whether a datum may lie in a range.
-/

namespace ColumnFile

/-- A **range** of values, both ends included. -/
inductive ValueRange
  | ints (min max : Int64)
  /-- Double-precision numbers, by their bit patterns. -/
  | floats (min max : UInt64)
  | strings (min max : Bytes)
deriving DecidableEq, Repr, Inhabited

namespace ValueRange

/-- The range of a datum; null has none. -/
def of (d : Datum) : Option ValueRange :=
  match d.toInt64? with
  | some v => some (ints v v)
  | none =>
    match d.toFloat64? with
    | some bits => some (floats bits bits)
    | none => d.toBytes?.map fun bs => strings bs bs

/-- The range that covers two ranges of one kind; of two ends in the same place the least one stays
and the greatest one changes. A range of another kind is left out. -/
def widen : ValueRange → ValueRange → ValueRange
  | ints min max, ints low high =>
    ints (if low < min then low else min) (if high < max then max else high)
  | floats min max, floats low high =>
    floats (if Binary.rank low < Binary.rank min then low else min)
      (if Binary.rank high < Binary.rank max then max else high)
  | strings min max, strings low high =>
    strings (if low < min then low else min) (if high < max then max else high)
  | range, _ => range

/-- Whether a datum may lie in a range. Of a datum of another kind nothing is known. -/
def mayContain (range : ValueRange) (d : Datum) : Bool :=
  match range, of d with
  | ints min max, some (ints v _) => min ≤ v ∧ v ≤ max
  | floats min max, some (floats v _) =>
    Binary.rank min ≤ Binary.rank v ∧ Binary.rank v ≤ Binary.rank max
  | strings min max, some (strings v _) => min ≤ v ∧ v ≤ max
  | _, _ => true

end ValueRange

end ColumnFile
