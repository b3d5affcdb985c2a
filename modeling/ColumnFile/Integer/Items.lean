import ColumnFile.Buffer
import ColumnFile.RunLength.Machine

/-! # Streams of variable-length integers

Integers of both kinds one behind the other, as run headers, blocks of distances and tables of
strings have them, with the place behind each. Beside them stand the loops of a machine, which cut
the groups off a word and push them to a buffer, and put them together to a word again.

* `Varint.Kind`, `Varint.Item` — unsigned and signed integers.
* `Varint.Kind.readAt` — the integer at a place.
* `Varint.inTurn` — integers of given kinds in turn; `Varint.placed` — where they end.
* `Varint.write`, `Varint.writeItems` — groups cut off a word.
* `Machine.readItem` — the integer at a place, as a word.
-/

namespace ColumnFile

namespace Zigzag

/-- The number of an integer, made of its bits: they move up by one and are inverted if the sign is
set. -/
def ofBits (v : Int64) : UInt64 := (v <<< 1 ^^^ v >>> 63).toUInt64

end Zigzag

namespace Varint

/-- The **kinds** of integers. -/
inductive Kind
  | unsigned
  | signed
deriving DecidableEq, Repr

/-- An **integer** of either kind. -/
inductive Item
  | unsigned (u : UInt64)
  | signed (v : Int64)
deriving DecidableEq, Repr

namespace Item

/-- The kind of an integer. -/
def kind : Item → Kind
  | unsigned _ => .unsigned
  | signed _ => .signed

/-- The bytes of an integer. -/
def encode : Item → Bytes
  | unsigned u => Varint.encode u
  | signed v => encodeSigned v

end Item

namespace Kind

/-- The integer of a kind that the groups of a number stand for; what lies past 64 bits is
dropped. -/
def item : Kind → Nat → Item
  | unsigned, n => .unsigned (UInt64.ofNat n)
  | signed, n => .signed (Zigzag.decode (UInt64.ofNat n))

/-- Reads an integer of a kind. -/
def read : Kind → Bytes → Except Fault (Item × Bytes)
  | unsigned, bs => (Varint.read bs).map fun p => (.unsigned p.1, p.2)
  | signed, bs => (readSigned bs).map fun p => (.signed p.1, p.2)

/-- Reads the integer of a kind at a place, and gives the place behind it. -/
def readAt (src : Bytes) (kind : Kind) (pos : Nat) : Except Fault (Item × Nat) :=
  (kind.read (src.drop pos)).map fun p => (p.1, src.length - p.2.length)

end Kind

/-- Reads integers of given kinds in turn from a place on, each with the place behind it. -/
def inTurn {ε : Type} (read : Kind → Nat → Except ε (Item × Nat)) :
    (kinds : List Kind) → (pos : Nat) → Except ε (List (Item × Nat))
  | [], _ => .ok []
  | kind :: kinds, pos => do
    let (item, pos) ← read kind pos
    let items ← inTurn read kinds pos
    return (item, pos) :: items

/-- Integers one behind the other from a place on, each with the place at the end of its bytes. -/
def placed : (start : Nat) → List Item → List (Item × Nat)
  | _, [] => []
  | start, item :: items =>
    (item, start + item.encode.length) :: placed (start + item.encode.length) items

/-! ## Words -/

/-- Cuts the groups off a word, the lowest first, and pushes them to a buffer. -/
def write (b : Buffer) (u : UInt64) : Buffer :=
  if u < 0x80 then b.push u.toUInt8
  else write (b.push (u.toUInt8 &&& 0x7F ||| 0x80)) (u >>> 7)
termination_by u.toNat
decreasing_by
  rename_i hmore
  have h128 : (0x80 : UInt64).toNat = 128 := rfl
  rw [UInt64.lt_iff_toNat_lt, h128] at hmore
  rw [UInt64.toNat_shiftRight, Nat.shiftRight_eq_div_pow]
  exact Nat.div_lt_self (by omega) (by decide)

/-- Writes an integer to a buffer. -/
def Item.write (b : Buffer) : Item → Buffer
  | unsigned u => Varint.write b u
  | signed v => Varint.write b (Zigzag.ofBits v)

/-- Writes integers to a buffer, one behind the other. -/
def writeItems (b : Buffer) (items : List Item) : Buffer :=
  items.foldl Item.write b

end Varint

namespace Machine

/-- Reads the integer of a kind at a place, and gives the place behind it. -/
def readItem (src : Bytes) : Varint.Kind → (pos : Nat) → Except Stop (Varint.Item × Nat)
  | .unsigned, pos => do
    let (n, pos) ← readVarint src turnsPerVarint 0 0 pos
    return (.unsigned (UInt64.ofNat n), pos)
  | .signed, pos => do
    let (n, pos) ← readVarint src turnsPerVarint 0 0 pos
    let v ← zigzag n
    return (.signed v, pos)

end Machine

end ColumnFile
