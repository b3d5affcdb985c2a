import ColumnFile.Block.Basic

/-! # Zstandard frames of raw and repeated blocks

A frame is a head, which may give the length of the content, a list of blocks and, when the head
says so, a checksum. A raw block holds bytes as they are, a repeated block a byte and a count. A
byte string is compressed to one frame of raw blocks and decompressed from any number of frames.

* `Zstd.xxh64` — the checksum.
* `Zstd.encode`, `Zstd.decode` — the two directions.
* `Zstd.compressor` — the block compressor.
-/

namespace ColumnFile

namespace Zstd

/-! ## Checksum -/

/-- The first prime of the checksum. -/
def prime1 : UInt64 := 0x9e3779b185ebca87

/-- The second one. -/
def prime2 : UInt64 := 0xc2b2ae3d27d4eb4f

/-- The third one. -/
def prime3 : UInt64 := 0x165667b19e3779f9

/-- The fourth one. -/
def prime4 : UInt64 := 0x85ebca77c2b2ae63

/-- The fifth one. -/
def prime5 : UInt64 := 0x27d4eb2f165667c5

/-- Turns the bits of a word to the left. -/
def rotateLeft (x : UInt64) (n : Nat) : UInt64 :=
  x <<< UInt64.ofNat n ||| x >>> UInt64.ofNat (64 - n)

/-- The little-endian word of the first `n` bytes. -/
def word (n : Nat) (bs : Bytes) : UInt64 := UInt64.ofNat (Bytes.toNatLE (bs.take n))

/-- Mixes a word into an accumulator. -/
def xxhRound (acc input : UInt64) : UInt64 := rotateLeft (acc + input * prime2) 31 * prime1

/-- Mixes an accumulator into the hash. -/
def xxhMerge (hash acc : UInt64) : UInt64 := (hash ^^^ xxhRound 0 acc) * prime1 + prime4

/-- Mixes whole stripes of 32 bytes into four accumulators. -/
def xxhStripes : (count : Nat) → (a b c d : UInt64) → Bytes → UInt64
  | 0, a, b, c, d, _ =>
    let hash := rotateLeft a 1 + rotateLeft b 7 + rotateLeft c 12 + rotateLeft d 18
    [a, b, c, d].foldl xxhMerge hash
  | count + 1, a, b, c, d, bs =>
    xxhStripes count (xxhRound a (word 8 bs)) (xxhRound b (word 8 (bs.drop 8)))
      (xxhRound c (word 8 (bs.drop 16))) (xxhRound d (word 8 (bs.drop 24))) (bs.drop 32)

/-- Mixes the bytes behind the stripes into the hash. -/
def xxhTail (hash : UInt64) (bs : Bytes) : UInt64 :=
  if 8 ≤ bs.length then
    xxhTail (rotateLeft (hash ^^^ xxhRound 0 (word 8 bs)) 27 * prime1 + prime4) (bs.drop 8)
  else if 4 ≤ bs.length then
    xxhTail (rotateLeft (hash ^^^ word 4 bs * prime1) 23 * prime2 + prime3) (bs.drop 4)
  else bs.foldl (fun hash b => rotateLeft (hash ^^^ b.toUInt64 * prime5) 11 * prime1) hash
termination_by bs.length
decreasing_by all_goals simp only [List.length_drop]; omega

/-- The 64-bit hash of a byte string. -/
def xxh64 (bs : Bytes) : UInt64 :=
  let stripes := bs.length / 32
  let hash :=
    if stripes = 0 then prime5
    else xxhStripes stripes (prime1 + prime2) prime2 0 (0 - prime1) bs
  let hash := xxhTail (hash + UInt64.ofNat bs.length) (bs.drop (32 * stripes))
  let hash := (hash ^^^ hash >>> 33) * prime2
  let hash := (hash ^^^ hash >>> 29) * prime3
  hash ^^^ hash >>> 32

/-! ## Compression -/

/-- The number that begins a frame. -/
def magic : Nat := 0xfd2fb528

/-- The most bytes of a block. -/
def maxBlock : Nat := 1 <<< 17

/-- The three bytes that begin a block. -/
def blockHead (last : Bool) (type size : Nat) : Bytes :=
  Bytes.ofNatLE 3 (last.toNat + 2 * type + 8 * size)

/-- The raw blocks of a byte string. -/
def rawBlocks (bs : Bytes) : Bytes :=
  if bs.length ≤ maxBlock then blockHead true 0 bs.length ++ bs
  else blockHead false 0 maxBlock ++ bs.take maxBlock ++ rawBlocks (bs.drop maxBlock)
termination_by bs.length
decreasing_by
  have h : 0 < maxBlock := by decide
  simp only [List.length_drop]
  omega

/-- The head of a frame whose window is its content: the length takes one byte or eight. -/
def frameHead (length : Nat) : Bytes :=
  Bytes.ofNatLE 4 magic ++
    if length < 256 then 0x20 :: Bytes.ofNatLE 1 length else 0xe0 :: Bytes.ofNatLE 8 length

/-- The frame of a byte string. -/
def encode (bs : Bytes) : Bytes := frameHead bs.length ++ rawBlocks bs

/-! ## Decompression -/

/-- Reads a little-endian number of `n` bytes. -/
def readNat (n : Nat) (bs : Bytes) : Option (Nat × Bytes) :=
  if bs.length < n then none else some (Bytes.toNatLE (bs.take n), bs.drop n)

/-- What the head of a frame says. -/
structure Head where
  /-- The length of the content, if it is given. -/
  length : Option Nat
  /-- Whether a checksum follows the blocks. -/
  checksum : Bool

/-- The logarithm of the window that a window byte stands for; the lowest three bits add eighths. -/
def windowLog (b : Nat) : Nat := b / 8 + 10

/-- The largest logarithm of a window that is accepted. -/
def maxWindowLog : Nat := 31

/-- The length that stands for a content of unknown length. -/
def unknownLength : Nat := 1 <<< 64 - 1

/-- Reads the head of a frame behind its magic number. -/
def readHead (bs : Bytes) : Option (Head × Bytes) := do
  let (descriptor, bs) ← readNat 1 bs
  let single := descriptor.testBit 5
  if descriptor.testBit 3 then none
  let (windowByte, bs) ← if single then some (0, bs) else readNat 1 bs
  let (dictionary, bs) ← readNat ([0, 1, 2, 4].getD (descriptor % 4) 0) bs
  if dictionary ≠ 0 then none
  let flag := descriptor / 64
  let size := if flag = 0 then (if single then 1 else 0) else 1 <<< flag
  let (length, bs) ← readNat size bs
  let length :=
    if size = 0 ∨ length = unknownLength then none
    else some (if size = 2 then length + 256 else length)
  if !single && maxWindowLog < windowLog windowByte then none
  some ({ length, checksum := descriptor.testBit 2 }, bs)

/-- Decodes blocks up to the last one; `made` is the content, block by block, the last block first.
Every block takes bytes, so `fuel` of their count is enough. -/
def blocks : (fuel room : Nat) → (made : List Bytes) → Bytes →
    Option (List Bytes × Bytes)
  | 0, _, _, _ => none
  | fuel + 1, room, made, bs => do
    let (head, bs) ← readNat 3 bs
    let size := head / 8
    let (content, bs) ←
      match head / 2 % 4 with
      | 0 => if bs.length < size then none else some (bs.take size, bs.drop size)
      | 1 =>
        match bs with
        | [] => none
        | b :: bs => if room < size then none else some (List.replicate size b, bs)
      | _ => none
    if room < size then none
    if head % 2 = 1 then some (content :: made, bs)
    else blocks fuel (room - size) (content :: made) bs

/-- Decodes a frame behind its magic number. -/
def frame (room : Nat) (bs : Bytes) : Option (Bytes × Bytes) := do
  let (head, bs) ← readHead bs
  let (made, bs) ← blocks (bs.length + 1) room [] bs
  let content := made.reverse.flatten
  if head.length.isSome ∧ head.length ≠ some content.length then none
  if head.checksum then
    let (sum, bs) ← readNat 4 bs
    if sum ≠ (xxh64 content).toNat % 1 <<< 32 then none
    some (content, bs)
  else some (content, bs)

/-- Decodes frames up to the end of the bytes; frames of user data are skipped. -/
def frames : (fuel room : Nat) → Bytes → Option Bytes
  | 0, _, _ => none
  | fuel + 1, room, bs =>
    if bs.isEmpty then some []
    else do
      let (number, bs) ← readNat 4 bs
      if number / 16 = 0x184d2a5 then
        let (size, bs) ← readNat 4 bs
        if bs.length < size then none
        frames fuel room (bs.drop size)
      else if number = magic then
        let (content, bs) ← frame room bs
        let rest ← frames fuel (room - content.length) bs
        some (content ++ rest)
      else none

/-- The byte string of some frames, if it has at most `limit` bytes. -/
def decode (limit : Nat) (bs : Bytes) : Option Bytes := frames (bs.length + 1) limit bs

/-- The size that suffices for a compressed string. -/
def bound (n : Nat) : Nat :=
  n + n / 256 + if n < maxBlock then (maxBlock - n) / 2048 else 0

/-- The Zstandard compressor. -/
def compressor : BlockCompressor :=
  BlockCompressor.ofFormat "zstd" bound none encode fun limit src =>
    match decode limit src with
    | some out => .ok out
    | none => .error none

end Zstd

end ColumnFile
