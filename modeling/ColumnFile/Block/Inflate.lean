import ColumnFile.Bytes

/-! # Inflating

The decoder of deflated data: blocks that store bytes as they are and blocks of symbols in prefix
codes, either fixed or described at the head of the block. Symbols stand for bytes, for the end of
the block and for copies of earlier output.

* `Inflate.Stop` — why decoding breaks off.
* `Inflate.Bits` — the bits that are left, the lowest bit of a byte first.
* `Inflate.PrefixCode` — a canonical prefix code.
* `Inflate.Output` — the bytes made and the room that is left.
* `Inflate.blocks` — decodes blocks up to the last one.
-/

namespace ColumnFile

namespace Inflate

/-- Why decoding **stops** before the end. -/
inductive Stop
  /-- The input or the room for output ran out. -/
  | exhausted
  /-- The input follows no rule of the format. -/
  | invalid
deriving DecidableEq, Repr

/-! ## Bits -/

/-- The bits that are left. -/
abbrev Bits : Type := List Bool

/-- The bits of a byte string, the lowest bit of a byte first. -/
def Bits.ofBytes (bs : Bytes) : Bits :=
  bs.flatMap fun b => (List.range 8).map b.toNat.testBit

/-- Reads a number of `n` bits, the lowest bit first. -/
def readBits : (n : Nat) → Bits → Except Stop (Nat × Bits)
  | 0, bits => .ok (0, bits)
  | _ + 1, [] => .error .exhausted
  | n + 1, bit :: rest => do
    let (high, rest) ← readBits n rest
    return (bit.toNat + 2 * high, rest)

/-- Reads `n` numbers of `width` bits. -/
def readMany (width : Nat) : (n : Nat) → Bits → Except Stop (List Nat × Bits)
  | 0, bits => .ok ([], bits)
  | n + 1, bits => do
    let (v, bits) ← readBits width bits
    let (vs, bits) ← readMany width n bits
    return (v :: vs, bits)

/-- Drops the bits up to the next whole byte; the input ends on one. -/
def alignBits (bits : Bits) : Bits := bits.drop (bits.length % 8)

/-! ## Prefix codes -/

/-- A canonical **prefix code**: how many words there are of each length from one on, and the
symbols in the order of their words. -/
structure PrefixCode where
  /-- How many words have one bit, two bits, and so on. -/
  counts : List Nat
  /-- The symbols in the order of their words. -/
  symbols : List Nat
deriving Repr

namespace PrefixCode

/-- The longest word. -/
def maxLength : Nat := 15

/-- The code in which symbol `i` has a word of the given length, or none for length zero. -/
def ofLengths (lengths : List Nat) : PrefixCode :=
  let widths := List.range' 1 maxLength
  { counts := widths.map lengths.count
    symbols := widths.flatMap fun w => (lengths.zipIdx.filter (·.1 = w)).map (·.2) }

/-- The words that remain unused when words of the given counts are taken; `none` when there are
more words than there can be. -/
def unused : (free : Nat) → (counts : List Nat) → Option Nat
  | free, [] => some free
  | free, n :: rest => if 2 * free < n then none else unused (2 * free - n) rest

/-- A code is usable when its words fill the space of words. Where gaps are allowed, so is a code
without a longer word than one bit, that is with one such word or none. -/
def usable (c : PrefixCode) (gapsAllowed : Bool) : Bool :=
  match unused 1 c.counts with
  | none => false
  | some 0 => true
  | some _ => gapsAllowed && c.symbols.length = c.counts.headD 0

/-- Reads the word of a symbol: `code` is the word so far, `first` the first word of its length and
`symbols` the symbols of words of its length or longer. Bits that are no word begin a longer one
only if there is one. -/
def readWord : (counts symbols : List Nat) → (code first : Nat) → Bits → Except Stop (Nat × Bits)
  | [], _, _, _, _ => .error .invalid
  | _ :: _, _, _, _, [] => .error .exhausted
  | n :: counts, symbols, code, first, bit :: rest =>
    let code := code + bit.toNat
    if code < first + n then
      match symbols[code - first]? with
      | some symbol => .ok (symbol, rest)
      | none => .error .invalid
    else
      let longer := symbols.drop n
      if longer.isEmpty then .error .invalid
      else readWord counts longer (2 * code) (2 * (first + n)) rest

/-- Reads a symbol. -/
def read (c : PrefixCode) (bits : Bits) : Except Stop (Nat × Bits) :=
  readWord c.counts c.symbols 0 0 bits

end PrefixCode

/-! ## Output -/

/-- The **output**: the bytes made, the last one first, and how many more there is room for. -/
structure Output where
  /-- The bytes made, the last one first. -/
  made : Bytes := []
  /-- How many bytes were made. -/
  size : Nat := 0
  /-- How many more bytes there is room for. -/
  room : Nat
deriving Repr

namespace Output

/-- One more byte. -/
def push (o : Output) (b : UInt8) : Except Stop Output :=
  if o.room = 0 then .error .exhausted
  else .ok { made := b :: o.made, size := o.size + 1, room := o.room - 1 }

/-- Some more bytes. -/
def pushAll : (bs : Bytes) → Output → Except Stop Output
  | [], o => .ok o
  | b :: rest, o => do pushAll rest (← o.push b)

/-- Repeats `count` bytes from `distance` bytes back, among them bytes that it makes itself. -/
def copy (distance count : Nat) (o : Output) : Except Stop Output :=
  if o.size < distance then .error .invalid
  else if o.room < count then .error .exhausted
  else .ok
    { made := Bytes.repeatBack distance count o.made
      size := o.size + count
      room := o.room - count }

end Output

/-! ## Blocks of symbols -/

/-- The least lengths of the copies that the length symbols stand for, and the bits that add to
them. -/
def lengthTable : List (Nat × Nat) :=
  [(3, 0), (4, 0), (5, 0), (6, 0), (7, 0), (8, 0), (9, 0), (10, 0), (11, 1), (13, 1), (15, 1),
    (17, 1), (19, 2), (23, 2), (27, 2), (31, 2), (35, 3), (43, 3), (51, 3), (59, 3), (67, 4),
    (83, 4), (99, 4), (115, 4), (131, 5), (163, 5), (195, 5), (227, 5), (258, 0)]

/-- The least distances that the distance symbols stand for, and the bits that add to them. -/
def distanceTable : List (Nat × Nat) :=
  [(1, 0), (2, 0), (3, 0), (4, 0), (5, 1), (7, 1), (9, 2), (13, 2), (17, 3), (25, 3), (33, 4),
    (49, 4), (65, 5), (97, 5), (129, 6), (193, 6), (257, 7), (385, 7), (513, 8), (769, 8),
    (1025, 9), (1537, 9), (2049, 10), (3073, 10), (4097, 11), (6145, 11), (8193, 12),
    (12289, 12), (16385, 13), (24577, 13)]

/-- Reads the number of a table's entry and the bits that add to it. -/
def readEntry (table : List (Nat × Nat)) (index : Nat) (bits : Bits) :
    Except Stop (Nat × Bits) :=
  match table[index]? with
  | none => .error .invalid
  | some (least, extra) => do
    let (more, bits) ← readBits extra bits
    return (least + more, bits)

/-- The symbol that ends a block. -/
def endSymbol : Nat := 256

/-- Decodes the symbols of a block. Every symbol takes a bit, so `fuel` of the count of bits is
enough. -/
def symbols (literals distances : PrefixCode) : (fuel : Nat) → Bits → Output →
    Except Stop (Bits × Output)
  | 0, _, _ => .error .exhausted
  | fuel + 1, bits, o => do
    let (symbol, bits) ← literals.read bits
    if symbol < endSymbol then
      symbols literals distances fuel bits (← o.push (UInt8.ofNat symbol))
    else if symbol = endSymbol then return (bits, o)
    else
      let (count, bits) ← readEntry lengthTable (symbol - endSymbol - 1) bits
      let (index, bits) ← distances.read bits
      let (distance, bits) ← readEntry distanceTable index bits
      symbols literals distances fuel bits (← o.copy distance count)

/-- The fixed code of bytes, the end and lengths. -/
def fixedLiterals : PrefixCode :=
  PrefixCode.ofLengths
    (List.replicate 144 8 ++ List.replicate 112 9 ++ List.replicate 24 7 ++ List.replicate 8 8)

/-- The fixed code of distances. -/
def fixedDistances : PrefixCode := PrefixCode.ofLengths (List.replicate 32 5)

/-- The order in which the lengths of the words for word lengths are given. -/
def lengthOrder : List Nat :=
  [16, 17, 18, 0, 8, 7, 9, 6, 10, 5, 11, 4, 12, 3, 13, 2, 14, 1, 15]

/-- Reads `count` word lengths; `read` holds those read, the last one first. Symbols past fifteen
repeat the last length or give several zeros. -/
def readLengths (code : PrefixCode) : (fuel count : Nat) → (read : List Nat) → Bits →
    Except Stop (List Nat × Bits)
  | _, 0, read, bits => .ok (read.reverse, bits)
  | 0, _ + 1, _, _ => .error .exhausted
  | fuel + 1, count + 1, read, bits => do
    let (symbol, bits) ← code.read bits
    if symbol ≤ PrefixCode.maxLength then readLengths code fuel count (symbol :: read) bits
    else
      let (least, extra) := if symbol = 16 then (3, 2) else if symbol = 17 then (3, 3) else (11, 7)
      let last ← if symbol = 16 then
          match read with
          | [] => throw .invalid
          | w :: _ => pure w
        else pure 0
      let (more, bits) ← readBits extra bits
      let times := least + more
      if count + 1 < times then throw .invalid
      readLengths code fuel (count + 1 - times) (List.replicate times last ++ read) bits

/-- Reads the two codes at the head of a block. -/
def readCodes (bits : Bits) : Except Stop (PrefixCode × PrefixCode × Bits) := do
  let (literalCount, bits) ← readBits 5 bits
  let (distanceCount, bits) ← readBits 5 bits
  let (lengthCount, bits) ← readBits 4 bits
  let literalCount := literalCount + 257
  let distanceCount := distanceCount + 1
  if 286 < literalCount ∨ 30 < distanceCount then throw .invalid
  let (given, bits) ← readMany 3 (lengthCount + 4) bits
  let widths := (List.range 19).map fun symbol =>
    ((lengthOrder.zip given).lookup symbol).getD 0
  let code := PrefixCode.ofLengths widths
  if !code.usable false then throw .invalid
  let (lengths, bits) ← readLengths code bits.length (literalCount + distanceCount) [] bits
  let literals := PrefixCode.ofLengths (lengths.take literalCount)
  let distances := PrefixCode.ofLengths (lengths.drop literalCount)
  if !literals.usable true || !distances.usable true then throw .invalid
  return (literals, distances, bits)

/-! ## Blocks -/

/-- Decodes a block of stored bytes: a length, its complement, the bytes. -/
def stored (bits : Bits) (o : Output) : Except Stop (Bits × Output) := do
  let (length, bits) ← readBits 16 (alignBits bits)
  let (complement, bits) ← readBits 16 bits
  if length + complement ≠ 1 <<< 16 - 1 then throw .invalid
  let available := min length (bits.length / 8)
  let (bytes, bits) ← readMany 8 available bits
  let o ← o.pushAll (bytes.map UInt8.ofNat)
  if available < length then throw .exhausted
  return (bits, o)

/-- Decodes one block; returns whether it is the last. -/
def block (bits : Bits) (o : Output) : Except Stop (Bool × Bits × Output) := do
  let (last, bits) ← readBits 1 bits
  let (type, bits) ← readBits 2 bits
  let (bits, o) ←
    match type with
    | 0 => stored bits o
    | 1 => symbols fixedLiterals fixedDistances bits.length bits o
    | 2 => do
      let (literals, distances, bits) ← readCodes bits
      symbols literals distances bits.length bits o
    | _ => throw .invalid
  return (last = 1, bits, o)

/-- Decodes blocks up to the last one. Every block takes bits, so `fuel` of the count of bits is
enough. -/
def blocks : (fuel : Nat) → Bits → Output → Except Stop (Bits × Output)
  | 0, _, _ => .error .exhausted
  | fuel + 1, bits, o => do
    let (last, bits, o) ← block bits o
    if last then return (bits, o) else blocks fuel bits o

end Inflate

end ColumnFile
