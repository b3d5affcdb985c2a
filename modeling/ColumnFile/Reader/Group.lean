import ColumnFile.Column.ToastRef
import ColumnFile.Reader.Stripe
import ColumnFile.Store.Basic

/-! # Groups

The rows of one stripe as a reader sees them: the columns, and the values that are stored out of
line in their places.

* `Group` — a decoded stripe.
* `Group.value`, `Group.row` — reading by place.
* `Group.next` — reading row after row.
* `Group.fetchToast` — the out-of-line values of the columns.
-/

namespace ColumnFile

/-- A **group**: one decoded stripe. -/
structure Group where
  /-- The place of the stripe in its file. -/
  index : Nat
  /-- The place of its first row in the file. -/
  rowOffset : Nat
  /-- The schema of the file. -/
  schema : List ColumnSpec
  /-- The columns. -/
  columns : ColumnSet
  /-- The out-of-line values of each column, by rows. -/
  toasted : List (List (Nat × Bytes))
  /-- The statistics of the columns. -/
  statistics : List ColumnStatistics
  /-- The next row to read. -/
  cursor : Nat := 0
deriving DecidableEq, Repr

namespace Group

/-- How many rows there are. -/
def rows (g : Group) : Nat := g.columns.rows

/-! ## Reading -/

/-- The out-of-line value of a row of a column, if it has one. -/
def toastOf (g : Group) (column row : Nat) : Option Bytes :=
  match g.toasted[column]? with
  | some values => values.lookup row
  | none => none

/-- The datum of a row of a column. -/
def value (g : Group) (column row : Nat) : Except Fault Datum :=
  match g.schema[column]? with
  | none => .error (.noColumn column g.schema.length)
  | some spec =>
    match g.toastOf column row with
    | some bs => Datum.ofStored spec.kind bs
    | none => do
      match ← (← g.columns.column? column).value row with
      | none => return .null
      | some bs => Datum.ofStored spec.kind bs

/-- The data of a row. -/
def row (g : Group) (row : Nat) : Except Fault Row :=
  (List.range g.schema.length).mapM fun column => g.value column row

/-- The next row, if there is one. -/
def next (g : Group) : Except Fault (Option Row) × Group :=
  if g.rows ≤ g.cursor then (.ok none, g)
  else ((g.row g.cursor).map some, { g with cursor := g.cursor + 1 })

/-- The first of `count` places from `place` on that is not skipped. -/
def firstKept (skipped : Nat → Bool) : (count place : Nat) → Option Nat
  | 0, _ => none
  | count + 1, place => if skipped place then firstKept skipped count (place + 1) else some place

/-- The place of the next row that is not skipped, if there is one, and the group behind it. -/
def advance (g : Group) (skipped : Nat → Bool) : Option (Nat × Group) :=
  (firstKept (fun row => skipped (g.rowOffset + row)) (g.rows - g.cursor) g.cursor).map fun row =>
    (row, { g with cursor := row + 1 })

/-! ## Out-of-line values -/

/-- The out-of-line value that a row of a column refers to, its column's values beginning at
`base`. -/
def fetchValue (store : Store) (file : FileId) (base : Nat) (c : Column) (row : Nat) :
    Except Fault (Nat × Bytes) := do
  match ← c.value row with
  | none => throw .nullToast
  | some bs =>
    let ref ← ToastRef.decode bs
    return (row, ← store.read file (base + ref.offset.toNat) ref.length.toNat)

/-- The out-of-line values of a column. -/
def fetchColumn (store : Store) (file : Option FileId) (base : Nat) (c : Column) :
    Except Fault (List (Nat × Bytes)) :=
  match c.toastRows, file with
  | none, _ => .ok []
  | some _, none => .error .toastFileMissing
  | some rows, some file => rows.ones.mapM (fetchValue store file base c)

/-- The out-of-line values of the columns of a stripe. -/
def fetchToast (store : Store) (file : Option FileId) (info : StripeInformation)
    (columns : ColumnSet) : Except Fault (List (List (Nat × Bytes))) :=
  columns.columns.zipIdx.mapM fun (c, i) => fetchColumn store file (info.toastBase i) c

end Group

end ColumnFile
