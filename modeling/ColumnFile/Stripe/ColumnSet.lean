import ColumnFile.Column.Basic

/-! # Column sets

The columns of one stripe, in the order of the schema.

* `ColumnSet` — the columns.
* `ColumnSet.new` — empty columns for a schema.
* `ColumnSet.column?` — a column by its place.
* `ColumnSet.modify` — one step of one column.
* `ColumnSet.appendRow` — one more row.
* `ColumnSet.external` — the out-of-line values of all columns.
-/

namespace ColumnFile

/-- A **column set**: the columns of one stripe. -/
structure ColumnSet where
  /-- The columns, in the order of the schema. -/
  columns : List Column := []
deriving DecidableEq, Repr

namespace ColumnSet

/-- Empty columns for the columns of a schema from the `i`-th on. Missing attributes are empty, and
supernumerary ones are left out. -/
def newFrom (format : StorageFormat) (choices : Nat → EncodingChoice) (offsets : EncodingChoice)
    (i : Nat) : (schema : List ColumnSpec) → (attributes : List Attributes) →
    Except Fault (List Column)
  | [], _ => .ok []
  | spec :: schema, attributes => do
    let column ← Column.new spec format (choices i) offsets (attributes.headD [])
    return column :: (← newFrom format choices offsets (i + 1) schema attributes.tail)

/-- Empty columns for a schema: `choices` gives the encoding of each, and `attributes`, where there
are some, what was learned from the columns of the stripe before. -/
def new (schema : List ColumnSpec) (format : StorageFormat) (choices : Nat → EncodingChoice)
    (offsets : EncodingChoice) (attributes : List Attributes) : Except Fault ColumnSet := do
  return { columns := ← newFrom format choices offsets 0 schema attributes }

/-- The column at a place. -/
def column? (s : ColumnSet) (i : Nat) : Except Fault Column :=
  match s.columns[i]? with
  | some c => .ok c
  | none => .error (.noColumn i s.columns.length)

/-- Attempts a step of the column at a place. -/
def modify (s : ColumnSet) (i : Nat) (step : Column → Attempt Column) : Attempt ColumnSet :=
  match s.columns[i]? with
  | none => (.error (.noColumn i s.columns.length), s)
  | some c =>
    let (outcome, c) := step c
    (outcome, { columns := s.columns.set i c })

/-- One more row: each datum goes to its column, up to the first that does not fit. -/
def appendRow (s : ColumnSet) (row : Row) : Attempt ColumnSet :=
  Attempt.all (fun s (d, i) => s.modify i (·.appendDatum d)) row.zipIdx s

/-- How many rows the columns have; they all have as many as the first. -/
def rows (s : ColumnSet) : Nat := (s.columns.head?.map Column.rows).getD 0

/-- How many octets the columns take in memory. -/
def size (s : ColumnSet) : Nat := (s.columns.map Column.size).foldr (· + ·) 0

/-- The attributes of the columns. -/
def attributes (s : ColumnSet) : List Attributes := s.columns.map Column.attributes

/-- The out-of-line values of all columns, joined in the order of the columns. -/
def external (s : ColumnSet) : Bytes := s.columns.flatMap Column.external

/-- How many out-of-line octets each column has. -/
def externalLengths (s : ColumnSet) : List Nat := s.columns.map fun c => c.external.length

/-- How many rows hold references to out-of-line values, in all columns. -/
def toastCount (s : ColumnSet) : Nat :=
  ((s.columns.filterMap Column.toastRows).map Bitmap.count).foldr (· + ·) 0

end ColumnSet

end ColumnFile
