import ColumnFile.Bitmap
import ColumnFile.Machine

/-! # Bitmaps on a machine

The calls of a bitmap once more, with sums and differences of words and with places that have to lie
in the words that are there. The positions and counts that callers name may be any words.

* `Machine.lookAt`, `Machine.writeBit` — a bit of the words.
* `Machine.addZeros`, `Machine.setBit`, `Machine.pushBit`, `Machine.extendBits` — growth and change.
* `Machine.unite` — the bits set in either of two bitmaps.
* `Machine.countBits`, `Machine.rankOf` — counting.
-/

namespace ColumnFile.Machine

/-- Bit `i`; bits past the end read as zero. -/
def lookAt (b : Bitmap) (i : Nat) : Except Stop Bool :=
  if i < b.len then do
    let w ← element b.words (i / 64)
    return w &&& Word.single i != 0#64
  else .ok false

/-- Writes bit `i` of the words. -/
def writeBit (b : Bitmap) (i : Nat) (val : Bool) : Except Stop Bitmap := do
  let _ ← element b.words (i / 64)
  return b.write i val

/-- `n` more zeros at the end. -/
def addZeros (b : Bitmap) (n : Nat) : Except Stop Bitmap := do
  let len ← add b.len n
  allocate (8 * Bitmap.wordsFor len)
  return { words := b.words.rightpad (Bitmap.wordsFor len) 0#64, len }

/-- Writes bit `i`; a bitmap that does not reach it is filled up with zeros first. -/
def setBit (b : Bitmap) (i : Nat) (val : Bool) : Except Stop Bitmap :=
  if i < b.len then writeBit b i val
  else do
    let stop ← add i 1
    let n ← sub stop b.len
    let b ← addZeros b n
    writeBit b i val

/-- One more bit at the end. -/
def pushBit (b : Bitmap) (val : Bool) : Except Stop Bitmap := do
  let words := if b.words.size ≤ b.len / 64 then b.words.push 0#64 else b.words
  let len ← add b.len 1
  setBit { words, len } b.len val

/-- `n` more ones at the end, one by one. -/
def pushOnes : (n : Nat) → Bitmap → Except Stop Bitmap
  | 0, b => .ok b
  | n + 1, b => do
    let b ← pushBit b true
    pushOnes n b

/-- `n` more bits of one value at the end. -/
def extendBits (b : Bitmap) (n : Nat) : (val : Bool) → Except Stop Bitmap
  | false => addZeros b n
  | true => pushOnes n b

/-- The bits set in either; the longer operand gives the length. -/
def unite (a b : Bitmap) : Except Stop Bitmap :=
  if a.len < b.len then do
    let n ← sub b.len a.len
    let a ← addZeros a n
    return Bitmap.combine (· ||| ·) a b
  else .ok (Bitmap.combine (· ||| ·) a b)

/-- How many bits are set at positions from `start` up to but not including `stop`. -/
def countBits (b : Bitmap) (start stop : Nat) : Except Stop Nat := do
  let stop := min stop b.len
  let start := min start stop
  if start = stop then return 0
  let before ← sub stop 1
  let first := start / 64
  let last := before / 64
  let low ← element b.words first
  if first = last then return (low &&& Word.onward start &&& Word.upTo before).ones
  let inner ← add first 1
  within b.words.size inner last
  let high ← element b.words last
  return (low &&& Word.onward start).ones + Bitmap.onesOf (b.words.extract inner last) +
    (high &&& Word.upTo before).ones

/-- How many bits are set at positions up to and including `i`. -/
def rankOf (b : Bitmap) (i : Nat) : Except Stop Nat := do
  let stop ← add i 1
  countBits b 0 stop

end ColumnFile.Machine
