import ColumnFile.MessagePack.Value

/-! # Reading MessagePack

* `Head` — what the beginning of a value announces.
* `Head.read` — reading a beginning.
* `Value.read` — reading a value of bounded depth.
* `Value.decode?` — the value at the beginning of a message.
-/

namespace ColumnFile.MessagePack

/-- What the beginning of a value announces: the value itself, or the size of what follows. -/
inductive Head
  | whole (v : Value)
  | text (size : Nat)
  | binary (size : Nat)
  | extension (size : Nat)
  | array (count : Nat)
  | map (count : Nat)
deriving Inhabited

/-- A big-endian number of some octets, and what follows it. -/
def readNat (width : Nat) (bs : Bytes) : Option (Nat × Bytes) := do
  let (front, rest) ← bs.take? width
  return (Bytes.toNatBE front, rest)

/-- A signed number of some octets, and what follows it. -/
def readInt (width : Nat) (bs : Bytes) : Option (Int × Bytes) := do
  let (n, rest) ← readNat width bs
  return (Int.bmod n (1 <<< (8 * width)), rest)

namespace Head

/-- A size of some octets. -/
def sized (head : Nat → Head) (width : Nat) (bs : Bytes) : Option (Head × Bytes) := do
  let (n, rest) ← readNat width bs
  return (head n, rest)

/-- A number of the unsigned family. -/
def natOf (width : Nat) (bs : Bytes) : Option (Head × Bytes) :=
  sized (fun n => whole (.nat n)) width bs

/-- A number of the signed family. -/
def intOf (width : Nat) (bs : Bytes) : Option (Head × Bytes) := do
  let (v, rest) ← readInt width bs
  return (whole (.int v), rest)

/-- Reads what a first octet of the upper half announces. -/
def readTagged (tag : Nat) (bs : Bytes) : Option (Head × Bytes) :=
  match tag with
  | 0xc0 => some (whole .nil, bs)
  | 0xc2 => some (whole (.bool false), bs)
  | 0xc3 => some (whole (.bool true), bs)
  | 0xc4 => sized binary 1 bs
  | 0xc5 => sized binary 2 bs
  | 0xc6 => sized binary 4 bs
  | 0xc7 => sized extension 1 bs
  | 0xc8 => sized extension 2 bs
  | 0xc9 => sized extension 4 bs
  | 0xca => sized (fun n => whole (.single (UInt32.ofNat n))) 4 bs
  | 0xcb => sized (fun n => whole (.double (UInt64.ofNat n))) 8 bs
  | 0xcc => natOf 1 bs
  | 0xcd => natOf 2 bs
  | 0xce => natOf 4 bs
  | 0xcf => natOf 8 bs
  | 0xd0 => intOf 1 bs
  | 0xd1 => intOf 2 bs
  | 0xd2 => intOf 4 bs
  | 0xd3 => intOf 8 bs
  | 0xd4 => some (extension 1, bs)
  | 0xd5 => some (extension 2, bs)
  | 0xd6 => some (extension 4, bs)
  | 0xd7 => some (extension 8, bs)
  | 0xd8 => some (extension 16, bs)
  | 0xd9 => sized text 1 bs
  | 0xda => sized text 2 bs
  | 0xdb => sized text 4 bs
  | 0xdc => sized array 2 bs
  | 0xdd => sized array 4 bs
  | 0xde => sized map 2 bs
  | 0xdf => sized map 4 bs
  | _ => none

/-- Reads the beginning of a value. -/
def read : Bytes → Option (Head × Bytes)
  | [] => none
  | b :: bs =>
    let n := b.toNat
    if n < 0x80 then some (whole (.nat n), bs)
    else if n < 0x90 then some (map (n - 0x80), bs)
    else if n < 0xa0 then some (array (n - 0x90), bs)
    else if n < 0xc0 then some (text (n - 0xa0), bs)
    else if n < 0xe0 then readTagged n bs
    else some (whole (.int (n - 256)), bs)

end Head

/-- Reads `count` items. -/
def readMany {α : Type} (item : Bytes → Option (α × Bytes)) :
    (count : Nat) → Bytes → Option (List α × Bytes)
  | 0, bs => some ([], bs)
  | count + 1, bs => do
    let (a, rest) ← item bs
    let (more, rest) ← readMany item count rest
    return (a :: more, rest)

/-- Reads two items. -/
def readPair {α : Type} (item : Bytes → Option (α × Bytes)) (bs : Bytes) :
    Option ((α × α) × Bytes) := do
  let (a, rest) ← item bs
  let (b, rest) ← item rest
  return ((a, b), rest)

namespace Value

/-- Reads the value that a beginning announces; `item` reads what it holds, and there has to be room
for it. -/
def readBody (item : Option (Bytes → Option (Value × Bytes))) (head : Head) (bs : Bytes) :
    Option (Value × Bytes) :=
  match head with
  | .whole v => some (v, bs)
  | .text size => (Bytes.take? bs size).map fun (s, rest) => (text s, rest)
  | .binary size => (Bytes.take? bs size).map fun (s, rest) => (binary s, rest)
  | .extension size =>
    match bs with
    | [] => none
    | tag :: bs => (Bytes.take? bs size).map fun (s, rest) => (extension tag s, rest)
  | .array count => do
    let (items, rest) ← readMany (← item) count bs
    return (array items, rest)
  | .map count => do
    let (entries, rest) ← readMany (readPair (← item)) count bs
    return (map entries, rest)

/-- Reads a value, in which arrays and maps are nested less than `depth` deep. -/
def read : (depth : Nat) → Bytes → Option (Value × Bytes)
  | 0, bs => do
    let (head, rest) ← Head.read bs
    readBody none head rest
  | depth + 1, bs => do
    let (head, rest) ← Head.read bs
    readBody (some (read depth)) head rest

/-- How deep arrays and maps can be nested; the shape of a message may set a lower bound. -/
def maxDepth : Nat := 1024

/-- The value at the beginning of a message; what follows it is left alone. -/
def decode? (bs : Bytes) : Option Value := (read maxDepth bs).map (·.1)

end Value

end ColumnFile.MessagePack
