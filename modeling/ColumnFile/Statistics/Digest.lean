import ColumnFile.Statistics.Bloom

/-! # Digests

A digest of an octet string is a 64-bit word that depends on all of its octets. It is built from
products of 64-bit words, whose two halves are both used.

* `Digest.fold` — the two halves of a product, combined.
* `Digest.of` — the digest of an octet string.
* `BloomScheme.standard` — these digests, in filters that are sized by the usual formulas.
-/

namespace ColumnFile.Digest

/-- The word that a digest starts from. -/
def seed : UInt64 := 0xbdd89aa982704029

/-- The first secret word. -/
def secret0 : UInt64 := 0x2d358dccaa6c78a5

/-- The second secret word. -/
def secret1 : UInt64 := 0x8bb84b93962eacc9

/-- The third secret word. -/
def secret2 : UInt64 := 0x4b33a62ed433d4a3

/-- The low and the high half of a product. -/
def product (a b : UInt64) : UInt64 × UInt64 :=
  let p := a.toNat * b.toNat
  (UInt64.ofNat p, UInt64.ofNat (p >>> 64))

/-- The two halves of a product, combined. -/
def fold (a b : UInt64) : UInt64 :=
  let (low, high) := product a b
  low ^^^ high

/-- The little-endian word of some octets from a position on. -/
def word (width : Nat) (bs : Bytes) (i : Nat) : UInt64 :=
  UInt64.ofNat (Bytes.toNatLE ((bs.drop i).take width))

/-- The words that a long string is folded into, block by block. -/
structure Lanes where
  /-- The first word. -/
  first : UInt64
  /-- The second word. -/
  second : UInt64
  /-- The third word. -/
  third : UInt64

namespace Lanes

/-- Folds a block of 48 octets. -/
def absorb (l : Lanes) (bs : Bytes) : Lanes where
  first := fold (word 8 bs 0 ^^^ secret0) (word 8 bs 8 ^^^ l.first)
  second := fold (word 8 bs 16 ^^^ secret1) (word 8 bs 24 ^^^ l.second)
  third := fold (word 8 bs 32 ^^^ secret2) (word 8 bs 40 ^^^ l.third)

/-- Folds blocks of 48 octets as long as there are any, and gives what remains: less than a
block. -/
def absorbAll (l : Lanes) (bs : Bytes) : Lanes × Bytes :=
  if 48 ≤ bs.length then absorbAll (l.absorb bs) (bs.drop 48) else (l, bs)
termination_by bs.length
decreasing_by
  simp only [List.length_drop]
  omega

/-- The word that the three are joined in. -/
def join (l : Lanes) : UInt64 := l.first ^^^ (l.second ^^^ l.third)

end Lanes

/-- The word of a long string before its last octets are folded in. -/
def long (start : UInt64) (bs : Bytes) : UInt64 :=
  let (lanes, rest) := Lanes.absorbAll ⟨start, start, start⟩ bs
  let joined := lanes.join
  if rest.length ≤ 16 then joined
  else
    let once := fold (word 8 rest 0 ^^^ secret2) (word 8 rest 8 ^^^ joined ^^^ secret1)
    if rest.length ≤ 32 then once
    else fold (word 8 rest 16 ^^^ secret2) (word 8 rest 24 ^^^ once)

/-- The two words of a string of at most 16 octets; in between they overlap. -/
def short (bs : Bytes) : UInt64 × UInt64 :=
  let n := bs.length
  if 4 ≤ n then
    let gap := if 8 ≤ n then 4 else 0
    (word 4 bs 0 <<< 32 ||| word 4 bs (n - 4), word 4 bs gap <<< 32 ||| word 4 bs (n - 4 - gap))
  else if 0 < n then
    (word 1 bs 0 <<< 56 ||| word 1 bs (n / 2) <<< 32 ||| word 1 bs (n - 1), 0)
  else (0, 0)

/-- The **digest** of an octet string. -/
def of (bs : Bytes) : UInt64 :=
  let length := UInt64.ofNat bs.length
  let start := seed ^^^ (fold (seed ^^^ secret0) secret1 ^^^ length)
  let (a, b, last) :=
    if bs.length ≤ 16 then
      let (a, b) := short bs
      (a, b, start)
    else (word 8 bs (bs.length - 16), word 8 bs (bs.length - 8), long start bs)
  let (low, high) := product (a ^^^ secret1) (b ^^^ last)
  fold (low ^^^ secret0 ^^^ length) (high ^^^ secret1)

end ColumnFile.Digest

namespace ColumnFile.BloomScheme

/-- The natural logarithm of two. -/
def log2 : Float := 0.693147180559945309417232121458

/-- The most bits that a digest sets. -/
def maxHashes : Nat := 16

/-- How many bits keep false answers at a rate when a number of digests are expected. -/
def bitsFor (expected : Nat) (rate : Float) : Nat :=
  let n := Float.ofNat (max expected 1)
  max 64 (-(n * rate.log) / (log2 * log2)).ceil.toUInt64.toNat

/-- How many bits a digest sets in a filter of `m` bits, so that about half of them end up set. -/
def hashesFor (expected m : Nat) : Nat :=
  let n := Float.ofNat (max expected 1)
  min maxHashes (max 1 (Float.ofNat m / n * log2).round.toUInt64.toNat)

/-- The scheme of this build. -/
@[reducible]
def standard : BloomScheme where
  digest := Digest.of
  words expected rate := (bitsFor expected rate + 63) / 64
  hashes expected rate := hashesFor expected (bitsFor expected rate)
  words_pos expected rate := by
    have hleast : 64 ≤ bitsFor expected rate := Nat.le_max_left ..
    omega
  hashes_pos expected rate := by
    simp only [hashesFor, maxHashes]
    omega

end ColumnFile.BloomScheme
