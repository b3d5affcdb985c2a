import ColumnFile.MessagePack.Value

/-! # Writing MessagePack

Every value begins with an octet that tells its kind and, where it fits, its size or the value
itself; the shortest form is written.

* `encodeNat`, `encodeInt` — numbers.
* `header` — the beginning of a value that has a size.
* `Value.encode` — the octets of a value.
-/

namespace ColumnFile.MessagePack

/-- The beginning of a value whose size follows the first octet: one, two or four octets of size,
each with a first octet of its own. -/
def sizeHeader (one two four : UInt8) (size : Nat) : Bytes :=
  if size < 1 <<< 8 then one :: Bytes.ofNatBE 1 size
  else if size < 1 <<< 16 then two :: Bytes.ofNatBE 2 size
  else four :: Bytes.ofNatBE 4 size

/-- A number of the unsigned family. -/
def encodeNat (n : Nat) : Bytes :=
  if n < 1 <<< 7 then [UInt8.ofNat n]
  else if n < 1 <<< 32 then sizeHeader 0xcc 0xcd 0xce n
  else 0xcf :: Bytes.ofNatBE 8 n

/-- The octets of a signed number, the most significant one first. -/
def signedBE (width : Nat) (v : Int) : Bytes :=
  Bytes.ofNatBE width (v % (1 <<< (8 * width) : Nat)).toNat

/-- A number of the signed family. -/
def encodeInt (v : Int) : Bytes :=
  if -32 ≤ v ∧ v < 0 then signedBE 1 v
  else if -128 ≤ v ∧ v < 128 then 0xd0 :: signedBE 1 v
  else if -0x8000 ≤ v ∧ v < 0x8000 then 0xd1 :: signedBE 2 v
  else if -0x80000000 ≤ v ∧ v < 0x80000000 then 0xd2 :: signedBE 4 v
  else 0xd3 :: signedBE 8 v

/-- The beginning of a text. -/
def textHeader (size : Nat) : Bytes :=
  if size < 1 <<< 5 then [0xa0 + UInt8.ofNat size] else sizeHeader 0xd9 0xda 0xdb size

/-- The beginning of an array or a map: a short one has its size in the first octet. -/
def countHeader (short two four : UInt8) (count : Nat) : Bytes :=
  if count < 1 <<< 4 then [short + UInt8.ofNat count]
  else if count < 1 <<< 16 then two :: Bytes.ofNatBE 2 count
  else four :: Bytes.ofNatBE 4 count

/-- The beginning of an array. -/
def arrayHeader (count : Nat) : Bytes := countHeader 0x90 0xdc 0xdd count

/-- The beginning of a map. -/
def mapHeader (count : Nat) : Bytes := countHeader 0x80 0xde 0xdf count

/-- The beginning of an extension. -/
def extensionHeader (size : Nat) : Bytes :=
  match size with
  | 1 => [0xd4]
  | 2 => [0xd5]
  | 4 => [0xd6]
  | 8 => [0xd7]
  | 16 => [0xd8]
  | _ => sizeHeader 0xc7 0xc8 0xc9 size

namespace Value

mutual

/-- The octets of a value. -/
def encode : Value → Bytes
  | nil => [0xc0]
  | bool false => [0xc2]
  | bool true => [0xc3]
  | nat n => encodeNat n
  | int v => encodeInt v
  | single bits => 0xca :: Bytes.ofNatBE 4 bits.toNat
  | double bits => 0xcb :: Bytes.ofNatBE 8 bits.toNat
  | text bs => textHeader bs.length ++ bs
  | binary bs => sizeHeader 0xc4 0xc5 0xc6 bs.length ++ bs
  | array items => arrayHeader items.length ++ encodeAll items
  | map entries => mapHeader entries.length ++ encodeEntries entries
  | extension tag bs => extensionHeader bs.length ++ tag :: bs

/-- The octets of some values. -/
def encodeAll : List Value → Bytes
  | [] => []
  | v :: rest => encode v ++ encodeAll rest

/-- The octets of the keys and values of a map. -/
def encodeEntries : List (Value × Value) → Bytes
  | [] => []
  | (k, v) :: rest => encode k ++ (encode v ++ encodeEntries rest)

end

end Value

end ColumnFile.MessagePack
