import ColumnFile.Datum.Number
import ColumnFile.MessagePack.Value
import ColumnFile.Text.Utf8

/-! # Shapes of messages

A shape tells how the values of a type are written as MessagePack values and read back. Shapes of
records name their fields: a record is written as a map from the names to the values of its fields.
A reader takes the fields in any order, leaves unknown ones alone and refuses a field that is there
twice; it takes a list of the values in their order too.

A reader goes down a bounded number of levels. Arrays, maps and extensions take one level each; a
map that only names an alternative takes none.

* `Shape` — writing and reading.
* `Shaped` — the types that have a shape.
* `Shape.nat`, `Shape.int`, `Shape.bool`, `Shape.text`, `Shape.double` — shapes of single values.
* `Shape.list`, `Shape.option`, `Shape.dictionary` — shapes built from others.
* `Shape.choice` — names that stand for values.
* `Fields` — the fields of a record.
-/

namespace ColumnFile.MessagePack

/-- A **shape**: how the values of a type are written and read. -/
structure Shape (α : Type) where
  /-- Writes a value. -/
  write : α → Value
  /-- Reads a value that may be nested so many levels deep. -/
  read : (levels : Nat) → Value → Option α
  /-- What a field stands for that a map does not name. -/
  unnamed : Option α := none
  /-- What a field stands for that is behind the end of a list. -/
  behind : Option α := none

/-- The types whose values are **messages**: they have a shape. -/
class Shaped (α : Type) where
  /-- The shape. -/
  shape : Shape α

namespace Value

/-- The text of a value; a byte string is taken for one too. -/
def toText? : Value → Option String
  | text bs | binary bs => bs.toString?
  | _ => none

/-- The integer that a value stands for, of either family. -/
def toInt? : Value → Option Int
  | nat n => some n
  | int v => some v
  | _ => none

/-- The double-precision number that a value stands for: narrower numbers are widened, and integers
are rounded to the nearest. -/
def toDouble? : Value → Option UInt64
  | double bits => some bits
  | single bits => some (Binary.widen bits)
  | nat n => some (UInt64.ofNat n).toFloat.toBits
  | int v => some (Int64.ofInt v).toFloat.toBits
  | _ => none

end Value

namespace Shape

/-! ## Single values -/

/-- Numbers of at most `width` binary digits. -/
def nat (width : Nat) : Shape Nat where
  write := .nat
  read _ v := do
    let n ← v.toInt?
    if 0 ≤ n ∧ n < (1 <<< width : Nat) then some n.toNat else none

/-- Integers of at most `width` binary digits, the sign included. -/
def int (width : Nat) : Shape Int where
  write := .ofInt
  read _ v := do
    let n ← v.toInt?
    if -(1 <<< (width - 1) : Nat) ≤ n ∧ n < (1 <<< (width - 1) : Nat) then some n else none

/-- Integers of 32 binary digits. -/
def int32 : Shape Int32 where
  write v := .ofInt v.toInt
  read levels v := ((int 32).read levels v).map Int32.ofInt

/-- Integers of 64 binary digits. -/
def int64 : Shape Int64 where
  write v := .ofInt v.toInt
  read levels v := ((int 64).read levels v).map Int64.ofInt

/-- Words of 64 binary digits. -/
def word64 : Shape UInt64 where
  write n := .nat n.toNat
  read levels v := ((nat 64).read levels v).map UInt64.ofNat

/-- Octets, each written as a number. -/
def octet : Shape UInt8 where
  write n := .nat n.toNat
  read levels v := ((nat 8).read levels v).map UInt8.ofNat

/-- Truth values. -/
def bool : Shape Bool where
  write := .bool
  read
    | _, .bool b => some b
    | _, _ => none

/-- Texts. -/
def text : Shape String where
  write s := .text (Bytes.ofString s)
  read _ := Value.toText?

/-- Double-precision numbers, by their bit patterns. -/
def double : Shape UInt64 where
  write := .double
  read _ := Value.toDouble?

/-! ## Built shapes -/

variable {α : Type}

/-- Lists, written as arrays. A byte string is read as the numbers of its octets. -/
def list (s : Shape α) : Shape (List α) where
  write l := .array (l.map s.write)
  read
    | levels + 1, .array items => items.mapM (s.read levels)
    | levels, .binary bs => bs.mapM fun b => s.read levels (.ofOctet b)
    | _, _ => none

/-- Values that may be absent; a field that is not named stands for an absent one. -/
def option (s : Shape α) : Shape (Option α) where
  write
    | none => .nil
    | some a => s.write a
  read
    | _, .nil => some none
    | levels, v => (s.read levels v).map some
  unnamed := some none

/-- Values that have a default, which a missing field stands for. -/
def withDefault (s : Shape α) (default : α) : Shape α :=
  { s with unnamed := some default, behind := some default }

/-- The value of a name among some values that have names, or of a place among them. -/
def lookup (values : List α) (name : α → String) : Value → Option α
  | .text bs | .binary bs => values.find? fun a => Bytes.ofString (name a) == bs
  | .nat n => values[n]?
  | _ => none

/-- Values that stand for themselves by name. A reader takes a map from the name to nothing too. -/
def choice (values : List α) (name : α → String) : Shape α where
  write a := .text (Bytes.ofString (name a))
  read
    | _, .map [(key, .nil)] => lookup values name key
    | _, v => lookup values name v

end Shape

/-! ## Records -/

/-- The value of a record: a map from the names to the values of its fields. -/
def Value.ofFields (fields : List (String × Value)) : Value :=
  .map (fields.map fun (name, v) => (.text (Bytes.ofString name), v))

/-- The **fields** of a record as they are read. -/
structure Fields where
  /-- The names and values of the fields that are there. -/
  entries : List (String × Value)
  /-- How many levels deep the values may be nested. -/
  levels : Nat
  /-- Whether a map named the fields; a list holds them in their order. -/
  named : Bool

namespace Fields

/-- The name of a field that a key stands for, if it is one of `names`: `none` if the key cannot be
one at all. -/
def nameOf (names : List String) : Value → Option (Option String)
  | .text bs | .binary bs => some (names.find? fun n => Bytes.ofString n == bs)
  | .nat n => some names[n]?
  | _ => none

/-- Adds the entries of a map to the fields found in it. A value that belongs to no field is left
alone, but it has to fit in the levels. -/
def collect (names : List String) (levels : Nat) :
    (found : List (String × Value)) → List (Value × Value) → Option (List (String × Value))
  | found, [] => some found
  | found, (key, v) :: rest =>
    match nameOf names key with
    | none => none
    | some none => if v.fits levels then collect names levels found rest else none
    | some (some name) =>
      if (found.lookup name).isSome then none
      else collect names levels (found ++ [(name, v)]) rest

/-- The fields of a record with some field names. An array holds no more than them, and of a byte
string, read as the numbers of its octets, the rest is left alone. -/
def ofValue? (names : List String) : (levels : Nat) → Value → Option Fields
  | levels + 1, .map entries =>
    (collect names levels [] entries).map ({ entries := ·, levels, named := true })
  | levels + 1, .array items =>
    if names.length < items.length then none
    else some { entries := names.zip items, levels, named := false }
  | levels, .binary bs =>
    some { entries := names.zip (bs.map Value.ofOctet), levels, named := false }
  | _, _ => none

/-- The value of a field. -/
def get {α : Type} (fields : Fields) (name : String) (s : Shape α) : Option α :=
  match fields.entries.lookup name with
  | some v => s.read fields.levels v
  | none => if fields.named then s.unnamed else s.behind

end Fields

namespace Shape

/-- Records: the values of the fields by name, and a record from its fields. -/
def record {α : Type} (names : List String) (write : α → List Value) (read : Fields → Option α) :
    Shape α where
  write a := .ofFields (names.zip (write a))
  read levels v := do read (← Fields.ofValue? names levels v)

/-- Texts by names: a map, in which a later entry takes the place of an earlier one. -/
def dictionary {α β : Type} (s : Shape β) (empty : α) (put : String → β → α → α)
    (entries : α → List (String × β)) : Shape α where
  write a := .ofFields ((entries a).map fun (name, b) => (name, s.write b))
  read
    | levels + 1, .map es =>
      es.foldlM (fun a (k, v) => do return put (← k.toText?) (← s.read levels v) a) empty
    | _, _ => none

end Shape

end ColumnFile.MessagePack
