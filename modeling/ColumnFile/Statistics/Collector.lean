import ColumnFile.Fault
import ColumnFile.Schema.Kind
import ColumnFile.Statistics.Basic

/-! # Collecting statistics

The running statistics of the columns of a schema. All columns count rows; which of them keep the
range of their values, and which their digests, is chosen when the collection begins.

* `ColumnCollector` — the running statistics of a column.
* `Collector` — those of all columns.
* `Collector.addRow` — one more row.
* `Collector.merge` — the rows of another collector.
* `Collector.finish` — the statistics so far.
-/

namespace ColumnFile

/-- The running statistics of a **column**. -/
structure ColumnCollector where
  /-- Whether the range is kept. -/
  ranged : Bool := false
  /-- How many rows there are. -/
  rows : Nat := 0
  /-- How many rows are not null. -/
  nonNull : Nat := 0
  /-- The range of the values. -/
  range : Option ValueRange := none
  /-- The digests of the values, if they are kept. -/
  digests : Option (List UInt64) := none
deriving DecidableEq, Repr, Inhabited

section

variable [BloomScheme]

namespace ColumnCollector

/-- A range widened by another, where there are any. -/
def widen : Option ValueRange → Option ValueRange → Option ValueRange
  | some a, some b => some (a.widen b)
  | some a, none => some a
  | none, b => b

/-- One more datum. -/
def add (c : ColumnCollector) (d : Datum) : ColumnCollector :=
  if d.isNull then { c with rows := c.rows + 1 }
  else
    { c with
      rows := c.rows + 1
      nonNull := c.nonNull + 1
      range := if c.ranged then widen c.range (ValueRange.of d) else c.range
      digests :=
        match c.digests, d.digestKey? with
        | some digests, some key => some (BloomScheme.digest key :: digests)
        | digests, _ => digests }

/-- The rows of another collector of the column. A range or a set of digests is kept only if both
keep it. -/
def merge (c other : ColumnCollector) : ColumnCollector :=
  let ranged := c.ranged && other.ranged
  { ranged
    rows := c.rows + other.rows
    nonNull := c.nonNull + other.nonNull
    range := if ranged then widen c.range other.range else none
    digests :=
      match c.digests, other.digests with
      | some ours, some theirs => some (theirs ++ ours)
      | _, _ => none }

/-- Forgets the rows and keeps the choices. -/
def reset (c : ColumnCollector) : ColumnCollector where
  ranged := c.ranged
  digests := c.digests.map fun _ => []

/-- The rate of false answers that filters are sized for. -/
def falseRate : Float := 0.01

/-- Puts a digest among others in ascending order, unless it is one of them. -/
def addDigest (h : UInt64) : List UInt64 → List UInt64
  | [] => [h]
  | first :: rest =>
    if h < first then h :: first :: rest
    else if h = first then first :: rest
    else first :: addDigest h rest

/-- The filter of some digests, sized for the distinct ones. -/
def filterOf (digests : List UInt64) : BloomFilter :=
  let distinct := digests.foldr addDigest []
  distinct.foldl BloomFilter.insert (BloomFilter.sized distinct.length falseRate)

/-- The statistics so far. -/
def finish (c : ColumnCollector) : ColumnStatistics where
  rows := c.rows
  nonNull := c.nonNull
  hasNull := c.nonNull < c.rows
  allNull := 0 < c.rows ∧ c.nonNull = 0
  range := c.range
  bloom := c.digests.map filterOf

end ColumnCollector

end

/-- A **collector**: the running statistics of the columns of a schema. -/
structure Collector where
  /-- The columns, in the order of the schema. -/
  columns : List ColumnCollector := []
deriving DecidableEq, Repr, Inhabited

namespace Collector

variable [BloomScheme]

/-- A collector without rows. The columns named in `ranged` keep their ranges, the columns named in
`digested` their digests. -/
def new (schema : List ColumnSpec) (ranged digested : List String) : Collector where
  columns := schema.map fun c =>
    { ranged := ranged.contains c.name
      digests := if digested.contains c.name then some [] else none }

/-- One more row. -/
def addRow (s : Collector) (row : Row) : Except Fault Collector :=
  if row.length ≠ s.columns.length then .error (.rowWidth row.length s.columns.length)
  else .ok { columns := List.zipWith ColumnCollector.add s.columns row }

/-- The rows of another collector. -/
def merge (s other : Collector) : Except Fault Collector :=
  if other.columns.length ≠ s.columns.length then .error .statisticsColumns
  else .ok { columns := List.zipWith ColumnCollector.merge s.columns other.columns }

/-- Forgets the rows and keeps the choices. -/
def reset (s : Collector) : Collector where
  columns := s.columns.map ColumnCollector.reset

/-- The statistics so far. -/
def finish (s : Collector) : List ColumnStatistics := s.columns.map ColumnCollector.finish

end Collector

end ColumnFile
