import ColumnFile.Bytes
import ColumnFile.Fault
import ColumnFile.Integer.Width

/-! # Bit packing

Runs of unsigned numbers packed at one bit width, the most significant bit first, each run padded
with zero bits to a whole byte. Nominal widths are rounded up to the coarse ladder, so a writer and
a reader that agree on the nominal width agree on the packed one.

* `Packing.pack`, `Packing.size` — the bytes of a run, and how many they are.
* `BitCursor` — a place between two bits of a byte string.
* `BitCursor.read` — the next numbers of a width.
* `Packing.read` — the numbers of a run at the head of a byte string.
-/

namespace ColumnFile

namespace Packing

/-- Packs values of `width` bits behind the `held` bits of `acc`, fewer than eight, that do not fill
a byte yet. -/
def packAfter (width : Nat) : (acc held : Nat) → List Nat → Bytes
  | _, 0, [] => []
  | acc, held + 1, [] => [UInt8.ofNat (acc <<< (8 - (held + 1)))]
  | acc, held, v :: rest =>
    let acc := acc <<< width + v % 1 <<< width
    let held := held + width
    Bytes.ofNatBE (held / 8) (acc >>> (held % 8)) ++
      packAfter width (acc % 1 <<< (held % 8)) (held % 8) rest

/-- The packed bytes of a run; values of width zero take none. -/
def pack (values : List Nat) (width : Nat) : Bytes :=
  if width = 0 then [] else packAfter (Width.aligned width) 0 0 values

/-- How many bytes a run of `count` values takes. -/
def size (count width : Nat) : Nat :=
  if width = 0 then 0 else (count * Width.aligned width + 7) / 8

@[simp] theorem pack_nil (width : Nat) : pack [] width = [] := by
  simp [pack, packAfter]

@[simp] theorem pack_width_zero (values : List Nat) : pack values 0 = [] := rfl

end Packing

/-- A place in a byte string, between two of its bits. -/
structure BitCursor where
  /-- The byte string. -/
  src : Array UInt8
  /-- How many bytes have been touched. -/
  pos : Nat := 0
  /-- How many low bits of the last touched byte are unread. -/
  bitsLeft : Nat := 0
  /-- The last touched byte. -/
  current : UInt8 := 0
deriving DecidableEq, Repr

namespace BitCursor

/-- The start of a byte string. -/
def ofBytes (src : Bytes) : BitCursor where
  src := src.toArray

/-- Drops the unread bits of the last touched byte. -/
def align (c : BitCursor) : BitCursor := { c with bitsLeft := 0 }

@[simp] theorem bitsLeft_align (c : BitCursor) : c.align.bitsLeft = 0 := rfl

/-- Touches the next byte. -/
def nextByte (c : BitCursor) : Except Fault BitCursor :=
  match c.src[c.pos]? with
  | none => .error .packedTruncated
  | some b => .ok { c with pos := c.pos + 1, bitsLeft := 8, current := b }

/-- Reads `want` more bits behind the bits of `acc`, byte by byte, when none is left over. -/
def readWhole (c : BitCursor) (want acc : Nat) : Except Fault (Nat × BitCursor) :=
  match c.nextByte with
  | .error e => .error e
  | .ok c =>
    if want ≤ 8 then
      .ok (acc <<< want + c.current.toNat >>> (8 - want), { c with bitsLeft := 8 - want })
    else readWhole c (want - 8) (acc <<< 8 + c.current.toNat)
termination_by want

/-- Reads the next `want` bits as a number. -/
def readBits (c : BitCursor) (want : Nat) : Except Fault (Nat × BitCursor) :=
  let unread := c.current.toNat % 1 <<< c.bitsLeft
  if want ≤ c.bitsLeft then
    .ok (unread >>> (c.bitsLeft - want), { c with bitsLeft := c.bitsLeft - want })
  else readWhole { c with bitsLeft := 0 } (want - c.bitsLeft) unread

/-- Reads `n` numbers of `width` bits each, bit by bit. -/
def readEach (width : Nat) : (n : Nat) → BitCursor → Except Fault (List Nat × BitCursor)
  | 0, c => .ok ([], c)
  | n + 1, c => do
    let (v, c) ← c.readBits width
    let (vs, c) ← readEach width n c
    return (v :: vs, c)

/-- The numbers of `size` bytes each that `bs` consists of. -/
def wholeNumbers (size : Nat) : (n : Nat) → (bs : Bytes) → List Nat
  | 0, _ => []
  | n + 1, bs => Bytes.toNatBE (bs.take size) :: wholeNumbers size n (bs.drop size)

/-- Reads the next `n` numbers of a nominal width. At width zero they are zeros and nothing
is consumed; whole bytes that start at a byte are taken at once. -/
def read (c : BitCursor) (n width : Nat) : Except Fault (List Nat × BitCursor) :=
  if width = 0 then .ok (List.replicate n 0, c)
  else
    let width := Width.aligned width
    if width % 8 = 0 ∧ c.bitsLeft = 0 then
      let size := width / 8
      let stop := c.pos + n * size
      if c.src.size < stop then .error .packedTruncated
      else .ok (wholeNumbers size n (c.src.extract c.pos stop).toList, { c with pos := stop })
    else readEach width n c

/-! ## Reading stays in its byte string -/

/-- A cursor that moves on to the next octet stays on its octets. -/
theorem src_of_nextByte {c c' : BitCursor} (h : c.nextByte = .ok c') : c'.src = c.src := by
  unfold nextByte at h
  split at h <;> cases h
  rfl

/-- A cursor that reads whole octets stays on its octets. -/
theorem src_of_readWhole {c c' : BitCursor} {want acc n : Nat}
    (h : c.readWhole want acc = .ok (n, c')) : c'.src = c.src := by
  fun_induction readWhole c want acc with
  | case1 => cases h
  | case2 c want acc c₁ h₁ hw =>
    cases h
    have hs := src_of_nextByte h₁
    exact hs
  | case3 c want acc c₁ h₁ hw ih => rw [ih h, src_of_nextByte h₁]

/-- A cursor that reads a number stays on its octets. -/
theorem src_of_readBits {c c' : BitCursor} {want n : Nat}
    (h : c.readBits want = .ok (n, c')) : c'.src = c.src := by
  unfold readBits at h
  split at h
  · cases h
    rfl
  · have hs := src_of_readWhole (c := { c with bitsLeft := 0 }) h
    exact hs

/-- A cursor that reads several numbers stays on its octets. -/
theorem src_of_readEach {width n : Nat} {c c' : BitCursor} {vs : List Nat}
    (h : readEach width n c = .ok (vs, c')) : c'.src = c.src := by
  induction n generalizing c vs with
  | zero =>
    cases h
    rfl
  | succ n ih =>
    simp only [readEach, bind, Except.bind] at h
    split at h
    · cases h
    · split at h
      · cases h
      · rename_i h₁ _ _ h₂
        cases h
        rw [ih h₂, src_of_readBits h₁]

/-- Reading moves the place and keeps the byte string. -/
theorem src_of_read {c c' : BitCursor} {n width : Nat} {vs : List Nat}
    (h : c.read n width = .ok (vs, c')) : c'.src = c.src := by
  unfold read at h
  split at h
  · cases h
    rfl
  · dsimp only at h
    split at h
    · split at h
      · cases h
      · cases h
        rfl
    · exact src_of_readEach h

end BitCursor

namespace Packing

/-- Reads a run at the head of a byte string; returns the numbers and what follows the run. -/
def read (count width : Nat) (bs : Bytes) : Except Fault (List Nat × Bytes) := do
  let (values, cursor) ← (BitCursor.ofBytes (bs.take (size count width))).read count width
  return (values, bs.drop cursor.pos)

end Packing

end ColumnFile
