import ColumnFile.Bitmap
import ColumnFile.Fault

/-! # Null tracking

Which rows of a column are null. As long as no row is, only the rows are counted; the first null
brings a bitmap, in which the bits of the rows that are not null are set.

* `Nulls` — the rows, the rows that are not null and the bitmap.
* `Nulls.push` — one more row.
* `Nulls.denseIndex`, `Nulls.rowOfDense` — from a row to its place among the rows that are not null,
  and back.
-/

namespace ColumnFile

/-- The **null rows** of a column. -/
structure Nulls where
  /-- How many rows there are. -/
  rows : Nat := 0
  /-- How many of them are not null. -/
  nonNull : Nat := 0
  /-- The rows that are not null; without a bitmap none is null. -/
  bitmap : Option Bitmap := none
deriving DecidableEq, Repr, Inhabited

namespace Nulls

/-- The tracker of a column without rows. -/
def empty : Nulls := {}

/-- The tracker of `rows` rows; a bitmap has a bit for each of them. -/
def ofBitmap (rows : Nat) : Option Bitmap → Except Fault Nulls
  | none => .ok { rows, nonNull := rows }
  | some b =>
    if b.len ≠ rows then .error .nullBitmapLength
    else .ok { rows, nonNull := b.count, bitmap := some b }

/-- One more row. -/
def push (t : Nulls) (notNull : Bool) : Nulls where
  rows := t.rows + 1
  nonNull := t.nonNull + notNull.toNat
  bitmap :=
    match t.bitmap with
    | some b => some (b.push notNull)
    | none => if notNull then none else some ((Bitmap.filled t.rows true).push false)

@[simp] theorem rows_push (t : Nulls) (notNull : Bool) : (t.push notNull).rows = t.rows + 1 := rfl

@[simp] theorem nonNull_push (t : Nulls) (notNull : Bool) :
    (t.push notNull).nonNull = t.nonNull + notNull.toNat := rfl

/-- Whether a row is null; a bitmap reads as null past its end. -/
def isNull (t : Nulls) (row : Nat) : Bool :=
  match t.bitmap with
  | none => false
  | some b => !b.get row

/-- How many rows before `row` are not null. -/
def denseIndex (t : Nulls) (row : Nat) : Nat :=
  match t.bitmap with
  | none => row
  | some b => b.countRange 0 row

/-- The row that has `k` rows before it that are not null, and is not null itself; the count of all
such rows leads to the end. -/
def rowOfDense (t : Nulls) (k : Nat) : Option Nat :=
  if k = t.nonNull then some t.rows
  else match t.bitmap with
    | none => if k < t.rows then some k else none
    | some b => b.select k

/-- How many octets the bitmap takes. -/
def bitmapBytes (t : Nulls) : Nat :=
  match t.bitmap with
  | none => 0
  | some b => Bitmap.bytesFor b.len

/-- Refuses a row past the end. -/
def checkRow (t : Nulls) (row : Nat) : Except Fault Unit :=
  if row < t.rows then .ok () else .error (.rowOutOfRange row t.rows)

end Nulls

end ColumnFile
