import ColumnFile.Datum.Number
import ColumnFile.Datum.Stored

/-! # Bloom filters

A set of digests that forgets which they were: every digest sets some bits, and a digest whose bits
are all set may be in the set.

* `BloomScheme` — how data are digested, and how large a filter is.
* `BloomFilter` — the bits.
* `BloomFilter.sized` — an empty filter for a number of digests and a rate of false answers.
* `BloomFilter.insert`, `BloomFilter.contains` — digests.
* `BloomFilter.mightContain` — data.
-/

namespace ColumnFile

/-- The octets that a datum is digested as; null has none. -/
def Datum.digestKey? (d : Datum) : Option Bytes :=
  match d.toInt64? with
  | some v => some (Bytes.ofInt64 8 v)
  | none =>
    match d.toFloat64? with
    | some bits => some (Bytes.ofNatLE 8 bits.toNat)
    | none => d.toBytes?

/-- A **scheme** of filters: how octets are digested, and how large the filter of some digests is.
It has a word at least, and every digest sets a bit. -/
class BloomScheme where
  /-- The digest of an octet string. -/
  digest : Bytes → UInt64
  /-- How many words keep false answers at a rate when a number of digests are expected. -/
  words : (expected : Nat) → (rate : Float) → Nat
  /-- How many bits a digest sets in them. -/
  hashes : (expected : Nat) → (rate : Float) → Nat
  /-- There is a word. -/
  words_pos : ∀ expected rate, 0 < words expected rate
  /-- A digest sets a bit. -/
  hashes_pos : ∀ expected rate, 0 < hashes expected rate

/-- A **Bloom filter**. -/
structure BloomFilter where
  /-- The bits, in words of 64. -/
  words : Array UInt64
  /-- How many bits a digest sets. -/
  hashes : Nat
deriving DecidableEq, Repr, Inhabited

namespace BloomFilter

/-! ## Size -/

/-- An empty filter for a number of digests and a rate of false answers. -/
def sized [BloomScheme] (expected : Nat) (rate : Float) : BloomFilter where
  words := Array.replicate (BloomScheme.words expected rate) 0
  hashes := BloomScheme.hashes expected rate

/-- A filter that is sized has a word. -/
theorem size_words_sized_pos [BloomScheme] (expected : Nat) (rate : Float) :
    0 < (sized expected rate).words.size := by
  rw [sized, Array.size_replicate]
  exact BloomScheme.words_pos expected rate

/-! ## Digests -/

/-- A word whose halves are exchanged. -/
def swapHalves (h : UInt64) : UInt64 := h <<< 32 ||| h >>> 32

/-- The bits of a digest: an arithmetic progression modulo the number of bits, whose step is odd. -/
def probes (f : BloomFilter) (h : UInt64) : List Nat :=
  (List.range f.hashes).map fun i =>
    (h + UInt64.ofNat i * (swapHalves h ||| 1)).toNat % (64 * f.words.size)

/-- Bit `p`. -/
def getBit (f : BloomFilter) (p : Nat) : Bool :=
  match f.words[p / 64]? with
  | some w => w.toNat.testBit (p % 64)
  | none => false

/-- Sets bit `p`. -/
def setBit (f : BloomFilter) (p : Nat) : BloomFilter :=
  { f with words := f.words.modify (p / 64) fun w => w ||| 1 <<< UInt64.ofNat (p % 64) }

/-- Adds a digest. -/
def insert (f : BloomFilter) (h : UInt64) : BloomFilter := (f.probes h).foldl setBit f

/-- Whether a digest may have been added. -/
def contains (f : BloomFilter) (h : UInt64) : Bool := (f.probes h).all f.getBit

/-- Whether a datum may have been added. Null is never kept track of, so it may. -/
def mightContain [BloomScheme] (f : BloomFilter) (d : Datum) : Bool :=
  match d.digestKey? with
  | some key => f.contains (BloomScheme.digest key)
  | none => true

end BloomFilter

end ColumnFile
