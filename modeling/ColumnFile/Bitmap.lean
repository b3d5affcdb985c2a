import ColumnFile.Bytes

/-! # Bitmaps

Growable sets of row numbers, kept in words of 64 bits: bit `i` is bit `i % 64` of word `i / 64`,
where the least significant bit of a word is its first. Reading past the end gives zero. Counts,
comparison and the packed form look at whole words, so what they give is right as long as no bit is
set past the end (`Bitmap.Tidy`).

* `Word` — 64 bits; `Word.ones`, `Word.dropLowest` — their count and removal.
* `Bitmap` — the words and the count of bits.
* `Bitmap.get`, `Bitmap.toList` — the two views of its content.
* `Bitmap.push`, `Bitmap.extend`, `Bitmap.set` — growth and change of single bits.
* `Bitmap.union`, `Bitmap.intersect`, `Bitmap.subtract` — combination word by word.
* `Bitmap.countRange`, `Bitmap.rank`, `Bitmap.select` — counting and its inverse.
* `Bitmap.toBytes`, `Bitmap.ofBytes?` — the packed form.
-/

namespace ColumnFile

/-- 64 bits of a bitmap. -/
abbrev Word : Type := BitVec 64

namespace Word

/-- The word in which only the bit of position `i` is set; positions are counted anew in each
word. -/
def single (i : Nat) : Word := 1#64 <<< (i % 64)

/-- The word in which the bits from position `i` on are set. -/
def onward (i : Nat) : Word := BitVec.allOnes 64 <<< (i % 64)

/-- The word in which the bits up to position `i` are set. -/
def upTo (i : Nat) : Word := BitVec.allOnes 64 >>> (63 - i % 64)

/-- How many bits are set. -/
def ones (w : Word) : Nat := w.cpop.toNat

/-- The position of the lowest set bit. -/
def lowest (w : Word) : Nat := w.ctz.toNat

/-- The word without its lowest set bit. -/
def dropLowest (w : Word) : Word := w &&& (w - 1#64)

/-- The word with the bit of position `i` written. -/
def write (w : Word) (i : Nat) (val : Bool) : Word :=
  if val then w ||| single i else w &&& ~~~ single i

end Word

/-- A **bitmap** of `len` bits. -/
structure Bitmap where
  /-- The bits, 64 to a word. -/
  words : Array Word := #[]
  /-- How many bits the bitmap holds. -/
  len : Nat := 0
deriving DecidableEq, Repr, Inhabited

namespace Bitmap

/-- How many words `n` bits take. -/
def wordsFor (n : Nat) : Nat := (n + 63) / 64

/-- How many octets `n` bits take. -/
def bytesFor (n : Nat) : Nat := (n + 7) / 8

/-- The bitmap without bits. -/
def empty : Bitmap := {}

/-- A word; past the last one all bits are zero. -/
def word (b : Bitmap) (k : Nat) : Word := b.words[k]?.getD 0#64

/-- Bit `i` of the words, also past the end. -/
def bit (b : Bitmap) (i : Nat) : Bool := (b.word (i / 64)).getLsbD (i % 64)

/-- Bit `i`; bits past the end read as zero. -/
def get (b : Bitmap) (i : Nat) : Bool :=
  decide (i < b.len) && b.word (i / 64) &&& Word.single i != 0#64

/-- The bits in order. -/
def toList (b : Bitmap) : List Bool :=
  (List.range b.len).map b.get

@[simp] theorem length_toList (b : Bitmap) : b.toList.length = b.len := by
  simp [toList]

/-- A bitmap is **tidy** when it has as many words as its bits take and no bit is set past the
end. -/
structure Tidy (b : Bitmap) : Prop where
  /-- There are no words too many or too few. -/
  size_words : b.words.size = wordsFor b.len
  /-- The bits past the end are zero. -/
  clean : ∀ i, b.len ≤ i → b.bit i = false

/-! ## Growth and change -/

/-- The bitmap with bit `i` of its words written. -/
def write (b : Bitmap) (i : Nat) (val : Bool) : Bitmap :=
  { b with words := b.words.modify (i / 64) (Word.write · i val) }

@[simp] theorem len_write (b : Bitmap) (i : Nat) (val : Bool) : (b.write i val).len = b.len := rfl

/-- One more bit at the end. -/
def push (b : Bitmap) (val : Bool) : Bitmap :=
  let words := if b.words.size ≤ b.len / 64 then b.words.push 0#64 else b.words
  write { words, len := b.len + 1 } b.len val

@[simp] theorem len_push (b : Bitmap) (val : Bool) : (b.push val).len = b.len + 1 := rfl

/-- The bitmap with the given bits in order. -/
def ofList (l : List Bool) : Bitmap :=
  l.foldl push empty

/-- The bits in order, as digits. -/
def text (b : Bitmap) : String := String.ofList (b.toList.map fun bit => if bit then '1' else '0')

/-- The bitmap of digits; whatever is not a one is a zero. -/
def ofText (s : String) : Bitmap := ofList (s.toList.map (· == '1'))

/-- `n` more bits of one value at the end. Zeros only need their words to be there. -/
def extend (b : Bitmap) (n : Nat) : (val : Bool) → Bitmap
  | false => { words := b.words.rightpad (wordsFor (b.len + n)) 0#64, len := b.len + n }
  | true => Nat.repeat (push · true) n b

/-- `n` bits of one value. -/
def filled (n : Nat) (val : Bool) : Bitmap :=
  empty.extend n val

/-- Writes bit `i`; a bitmap that does not reach it is filled up with zeros first. -/
def set (b : Bitmap) (i : Nat) (val : Bool) : Bitmap :=
  write (if i < b.len then b else b.extend (i + 1 - b.len) false) i val

/-- Zeroes every bit and keeps their count. -/
def clear (b : Bitmap) : Bitmap := { b with words := b.words.map fun _ => 0#64 }

/-! ## Combination -/

/-- The bitmap with each word combined with the word of another at its place. -/
def combine (f : Word → Word → Word) (a b : Bitmap) : Bitmap :=
  { a with words := a.words.mapIdx fun k w => f w (b.word k) }

@[simp] theorem len_combine (f : Word → Word → Word) (a b : Bitmap) : (combine f a b).len = a.len :=
  rfl

/-- The bits set in either; the longer operand gives the length. -/
def union (a b : Bitmap) : Bitmap :=
  combine (· ||| ·) (if a.len < b.len then a.extend (b.len - a.len) false else a) b

/-- The bits set in both, with the length of the first. -/
def intersect (a b : Bitmap) : Bitmap := combine (· &&& ·) a b

/-- The bits of the first that are not set in the second, with the length of the first. -/
def subtract (a b : Bitmap) : Bitmap := combine (fun w v => w &&& ~~~v) a b

/-! ## Counting -/

/-- The positions of the set bits, in ascending order. -/
def ones (b : Bitmap) : List Nat :=
  (List.range b.len).filter b.get

/-- How many bits of some words are set. -/
def onesOf (words : Array Word) : Nat :=
  words.foldl (fun n w => n + w.ones) 0

/-- How many bits are set. -/
def count (b : Bitmap) : Nat := onesOf b.words

/-- Whether some bit is set. -/
def any (b : Bitmap) : Bool := b.words.any (· != 0#64)

/-- Whether every bit is set. -/
def isFull (b : Bitmap) : Bool := b.count == b.len

/-- How many bits are set at positions from `start` up to but not including `stop`. Of the words at
both ends only the bits that lie inside are looked at. -/
def countRange (b : Bitmap) (start stop : Nat) : Nat :=
  let stop := min stop b.len
  let start := min start stop
  if start = stop then 0
  else
    let first := start / 64
    let last := (stop - 1) / 64
    if first = last then
      (b.word first &&& Word.onward start &&& Word.upTo (stop - 1)).ones
    else
      (b.word first &&& Word.onward start).ones + onesOf (b.words.extract (first + 1) last) +
        (b.word last &&& Word.upTo (stop - 1)).ones

/-- How many bits are set at positions up to and including `i`. -/
def rank (b : Bitmap) (i : Nat) : Nat :=
  b.countRange 0 (i + 1)

/-- The position of the set bit that has `k` set bits before it in words that start at position
`base`. -/
def selectFrom : (words : List Word) → (base k : Nat) → Option Nat
  | [], _, _ => none
  | w :: words, base, k =>
    if k < w.ones then some (base + (Nat.repeat Word.dropLowest k w).lowest)
    else selectFrom words (base + 64) (k - w.ones)

/-- The position of the set bit that has `k` set bits before it. -/
def select (b : Bitmap) (k : Nat) : Option Nat :=
  selectFrom b.words.toList 0 k

/-! ## Packed form -/

/-- The bits packed into octets, the first bit lowest. -/
def toBytes (b : Bitmap) : Bytes :=
  (b.words.toList.flatMap fun w => Bytes.ofNatLE 8 w.toNat).take (bytesFor b.len)

/-- Lays octets into words from octet `i` on, eight to a word. -/
def layBytes : (words : Array Word) → (i : Nat) → (bs : Bytes) → Array Word
  | words, _, [] => words
  | words, i, octet :: bs =>
    layBytes (words.modify (i / 8) (· ||| BitVec.ofNat 64 octet.toNat <<< (8 * (i % 8)))) (i + 1) bs

/-- The first `len` bits of packed octets; `none` when there are too few octets. Octets and bits
past the end are left out. -/
def ofBytes? (bs : Bytes) (len : Nat) : Option Bitmap :=
  if bs.length < bytesFor len then none
  else
    let words := layBytes (Array.replicate (wordsFor len) 0#64) 0 (bs.take (bytesFor len))
    let words :=
      if len % 64 = 0 then words
      else words.modify (wordsFor len - 1) (· &&& Word.upTo (len - 1))
    some { words, len }

end Bitmap

end ColumnFile
