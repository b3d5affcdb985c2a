import ColumnFile.Statistics.Bloom
import ColumnFile.Statistics.Range

/-! # Statistics of a column

What is known of the values of a column without reading them. They tell whether a datum can be among
the values, and never that it is not when it is.

* `ColumnStatistics` — the statistics.
* `ColumnStatistics.mayContain` — whether a datum may be among the values.
-/

namespace ColumnFile

/-- The **statistics** of a column. -/
structure ColumnStatistics where
  /-- How many rows there are. -/
  rows : Nat := 0
  /-- How many rows are not null. -/
  nonNull : Nat := 0
  /-- Whether some row is null. -/
  hasNull : Bool := false
  /-- Whether there are rows and all of them are null. -/
  allNull : Bool := false
  /-- The range of the values. -/
  range : Option ValueRange := none
  /-- The digests of the values. -/
  bloom : Option BloomFilter := none
deriving DecidableEq, Repr, Inhabited

namespace ColumnStatistics

/-- Whether a datum may be among the values. -/
def mayContain [BloomScheme] (s : ColumnStatistics) (d : Datum) : Bool :=
  if d.isNull then s.hasNull
  else if s.nonNull = 0 then false
  else s.range.all (·.mayContain d) && s.bloom.all (·.mightContain d)

end ColumnStatistics

end ColumnFile
