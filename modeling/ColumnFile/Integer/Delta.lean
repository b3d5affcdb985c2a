import ColumnFile.Integer.Difference
import ColumnFile.Integer.Packing
import ColumnFile.Integer.Varint

/-! # Direct delta encoding

A list of integers as its first integer and the distances between neighbours. The distances come in
blocks of at most 128; a block is the least distance, a width byte and the excess of each distance
over the least one, packed at that width. Arithmetic wraps around.

* `Delta.encode` — the stream of a list.
* `Delta.decode` — the list of a stream; `Delta.announced` — how long it says that it is.
-/

namespace ColumnFile

namespace Delta

/-- The most distances of a block. -/
def blockLength : Nat := 128

/-- The bytes of one block of distances. -/
def encodeBlock (block : List Int64) : Bytes :=
  let least := block.tail.foldl min (block.headD 0)
  let excess := block.map fun d => (d - least).toUInt64.toNat
  let most := excess.foldl max 0
  let width := if most = 0 then 0 else Width.required most
  Varint.encodeSigned least ++ UInt8.ofNat width :: Packing.pack excess width

/-- The bytes of the blocks that the distances fall into. -/
def encodeBlocks (distances : List Int64) : Bytes :=
  if distances.isEmpty then []
  else encodeBlock (distances.take blockLength) ++ encodeBlocks (distances.drop blockLength)
termination_by distances.length
decreasing_by
  have h : 0 < blockLength := by decide
  cases distances with
  | nil => simp at *
  | cons d rest => simp only [List.length_drop, List.length_cons]; omega

/-- The stream of a list: the count, the first integer, the blocks of distances. -/
def encode (values : List Int64) : Bytes :=
  Varint.encode (UInt64.ofNat values.length) ++
    match values with
    | [] => []
    | first :: _ => Varint.encodeSigned first ++ encodeBlocks (differences values)

/-- Reads a block of `count` distances. -/
def readBlock (count : Nat) (bs : Bytes) : Except Fault (List Int64 × Bytes) := do
  let (least, rest) ← Varint.readSigned bs
  match rest with
  | [] => throw .deltaBlockTruncated
  | width :: rest =>
    let (excess, rest) ← Packing.read count width.toNat rest
    return (excess.map fun e => least + Int64.ofNat e, rest)

/-- Reads the blocks of `count` distances. -/
def readBlocks (count : Nat) (bs : Bytes) : Except Fault (List Int64 × Bytes) :=
  if count = 0 then .ok ([], bs)
  else do
    let (block, rest) ← readBlock (min count blockLength) bs
    let (blocks, rest) ← readBlocks (count - min count blockLength) rest
    return (block ++ blocks, rest)
termination_by count
decreasing_by
  have h : 0 < blockLength := by decide
  omega

/-- How many integers a stream announces, if it is long enough to hold as many. -/
def announced (bs : Bytes) : Nat :=
  match Varint.read bs with
  | .error _ => 0
  | .ok (count, _) => if bs.length * (8 * blockLength) < count.toNat then 0 else count.toNat

/-- The list of a stream. A count that no stream of this length can hold is refused before anything
else is read, and a stream that holds integers ends behind its last block. -/
def decode (bs : Bytes) : Except Fault (List Int64) := do
  let (count, rest) ← Varint.read bs
  let count := count.toNat
  if count = 0 then return []
  if bs.length * (8 * blockLength) < count then throw .deltaCount
  let (first, rest) ← Varint.readSigned rest
  let (distances, rest) ← readBlocks (count - 1) rest
  if rest.isEmpty then return first :: sums first distances
  else throw .deltaTrailing

end Delta

end ColumnFile
