/-! # Column kinds

The kinds of values that a column can hold, how wide they are, and how a schema describes a column.

* `Kind` — the nine kinds of values.
* `Kind.fixedWidth` — the element width of the kinds that have one.
* `ColumnSpec` — the name, kind and alignment of a column.
* `StorageFormat` — whether null rows keep a slot in the data.
-/

namespace ColumnFile

/-- The **kind** of the values of a column. -/
inductive Kind
  | boolean
  | byte
  | short
  | int
  | long
  | float
  | double
  | string
  | bytes
deriving DecidableEq, Repr, Inhabited

namespace Kind

/-- Every kind, in the order of declaration. -/
def all : List Kind := [boolean, byte, short, int, long, float, double, string, bytes]

/-- The name under which a kind is recorded. -/
def name : Kind → String
  | boolean => "Boolean"
  | byte => "Byte"
  | short => "Short"
  | int => "Int"
  | long => "Long"
  | float => "Float"
  | double => "Double"
  | string => "String"
  | bytes => "Bytes"

/-- The element width of the kinds whose values all have one width. -/
def fixedWidth : Kind → Option Nat
  | boolean | byte => some 1
  | short => some 2
  | int | float => some 4
  | long | double => some 8
  | string | bytes => none

/-- Whether the values are integers, which the integer codecs can encode. -/
def isInteger : Kind → Bool
  | boolean | byte | short | int | long => true
  | float | double | string | bytes => false

/-- The start alignment that a column of this kind asks for by default: its element width. -/
def defaultAlign (k : Kind) : Nat := k.fixedWidth.getD 1

/-- A width is not none. -/
theorem fixedWidth_pos {k : Kind} {w : Nat} (h : k.fixedWidth = some w) : 0 < w := by
  cases k <;> simp [fixedWidth] at h <;> omega

end Kind

/-- The description of one column of a schema. -/
structure ColumnSpec where
  /-- The name of the column. -/
  name : String
  /-- The kind of its values. -/
  kind : Kind
  /-- The alignment at which its unencoded data starts. -/
  align : Nat
deriving DecidableEq, Repr, Inhabited

namespace ColumnSpec

/-- A column with the default alignment of its kind. -/
def ofKind (name : String) (kind : Kind) : ColumnSpec where
  name := name
  kind := kind
  align := kind.defaultAlign

/-- Data can start at multiples of 1, 2, 4 and 8. -/
def validAlign (c : ColumnSpec) : Bool := [1, 2, 4, 8].contains c.align

@[simp] theorem validAlign_ofKind (name : String) (kind : Kind) :
    (ofKind name kind).validAlign = true := by
  cases kind <;> rfl

end ColumnSpec

/-- The **storage format**: what a null row takes up in the data of a fixed-width column. -/
inductive StorageFormat
  /-- A zero placeholder of element width stands for every null. -/
  | padded
  /-- Only the values are stored; nulls take no space. -/
  | dense
deriving DecidableEq, Repr, Inhabited

namespace StorageFormat

/-- The name under which a format is recorded. -/
def name : StorageFormat → String
  | padded => "Porc"
  | dense => "PorcVec"

/-- The name under which a format is configured and shown. -/
def label : StorageFormat → String
  | padded => "porc"
  | dense => "porc_vec"

/-- Whether nulls take no space. -/
def isDense (f : StorageFormat) : Bool := f == dense

end StorageFormat

end ColumnFile
