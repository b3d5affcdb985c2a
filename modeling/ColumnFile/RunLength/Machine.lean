import ColumnFile.Bitmap.Machine
import ColumnFile.RunLength.Decoder

/-! # Run-length decoding on a machine

The reader of runs once more, with what a machine has: a place in the byte string in place of the
bytes that are left over, words of 64 bits, and operations that stop the program when an operand is
out of range. It tells whether such an operand can come up; what it reads is what `Run.readAll`
reads.

* `Machine.unpack` — a packed run; `Machine.readBits` is the loop over the bytes of a number.
* `Machine.readRun` — a run.
* `MachineDecoder` — the values of the last run with the place of the next one;
  `MachineDecoder.gather` asks for values until there are no more.
* `MachineDecoder.read`, `MachineDecoder.skip`, `MachineDecoder.readNotNull` — as many values as are
  asked for; `MachineDecoder.inChunks` is the loop over the runs that they lie in.

Shifts of an octet by a constant are written as divisions, as in `Run`.
-/

namespace ColumnFile

namespace Machine

/-! ## Packed runs -/

/-- Touches the next byte. -/
def nextByte (c : BitCursor) : Except Stop BitCursor :=
  match c.src[c.pos]? with
  | none => .error (.fault .packedTruncated)
  | some b => do
    let pos ← add c.pos 1
    return { c with pos, bitsLeft := 8, current := b }

/-- Reads `want` more bits behind the bits of `acc`: what is left of the last touched byte, then
byte after byte, at most `turns` of them. -/
def readBits : (turns : Nat) → (c : BitCursor) → (want acc : Nat) → Except Stop (Nat × BitCursor)
  | 0, _, _, _ => .error (.trap .endless)
  | turns + 1, c, want, acc =>
    if c.bitsLeft < want then do
      let acc ← shiftLeft acc c.bitsLeft
      let mask ← lowMask c.bitsLeft
      let want ← sub want c.bitsLeft
      let acc := acc ||| c.current.toNat &&& mask
      let c ← nextByte c
      readBits turns c want acc
    else if want = 0 then .ok (acc, c)
    else do
      let left ← sub c.bitsLeft want
      let acc ← shiftLeft acc want
      let mask ← lowMask want
      let high ← shiftRight c.current.toNat left
      return (acc ||| high &&& mask, { c with bitsLeft := left })

/-- The most bytes that the bits of a number are spread over, and one turn to see that they are
read. -/
def turnsPerNumber : Nat := 10

/-- Reads `n` numbers of `width` bits each, bit by bit. -/
def readEach (width : Nat) : (n : Nat) → BitCursor → Except Stop (List Nat × BitCursor)
  | 0, c => .ok ([], c)
  | n + 1, c => do
    let (v, c) ← readBits turnsPerNumber c width 0
    let (vs, c) ← readEach width n c
    return (v :: vs, c)

/-- The number of some octets behind `acc`. -/
def octets : Bytes → (acc : Nat) → Except Stop Nat
  | [], acc => .ok acc
  | b :: rest, acc => do
    let acc ← shiftLeft acc 8
    octets rest (acc ||| b.toNat)

/-- The numbers of `size` octets each that `bs` consists of. -/
def wholeNumbers (size : Nat) : (n : Nat) → (bs : Bytes) → Except Stop (List Nat)
  | 0, _ => .ok []
  | n + 1, bs => do
    let v ← octets (bs.take size) 0
    let vs ← wholeNumbers size n (bs.drop size)
    return v :: vs

/-- Reads `count` numbers of a nominal width from the byte at `pos` on. -/
def unpack (src : Bytes) (count width pos : Nat) : Except Stop (List Nat × Nat) :=
  if width = 0 then .ok (List.replicate count 0, pos)
  else
    let width := Width.aligned width
    if width % 8 = 0 then do
      let size := width / 8
      let need ← mul count size
      let stop ← add pos need
      if src.length < stop then .error (.fault .packedTruncated)
      else do
        let chunk ← slice src pos stop
        let values ← wholeNumbers size count chunk
        return (values, stop)
    else do
      let (values, c) ← readEach width count { src := src.toArray, pos }
      return (values, c.pos)

/-! ## Parts of a run -/

/-- Reads one byte of a run. -/
def readByte (src : Bytes) (pos : Nat) : Except Stop (UInt8 × Nat) :=
  match src[pos]? with
  | none => .error (.fault .runTruncated)
  | some b => do
    let pos ← add pos 1
    return (b, pos)

/-- Reads `size` octets of a big-endian number behind `acc`. -/
def readBE (src : Bytes) : (size acc pos : Nat) → Except Stop (Nat × Nat)
  | 0, acc, pos => .ok (acc, pos)
  | size + 1, acc, pos => do
    let (b, pos) ← readByte src pos
    let acc ← shiftLeft acc 8
    readBE src size (acc ||| b.toNat) pos

/-- Reads the rest of the count that begins in the first byte of a run. -/
def readCount (src : Bytes) (first : UInt8) (pos : Nat) : Except Stop (Nat × Nat) := do
  let (low, pos) ← readByte src pos
  let high ← shiftLeft (first.toNat % 2) 8
  let count ← add (high ||| low.toNat) 1
  return (count, pos)

/-- Reads the groups of a varint behind the `shift` bits of `acc`, at most `turns` of them. -/
def readVarint (src : Bytes) : (turns shift acc pos : Nat) → Except Stop (Nat × Nat)
  | 0, _, _, _ => .error (.trap .endless)
  | turns + 1, shift, acc, pos =>
    match src[pos]? with
    | none => .error (.fault .varintTruncated)
    | some b => do
      let pos ← add pos 1
      if 64 ≤ shift then .error (.fault .varintTooLong)
      else do
        let group ← shiftLeft (b.toNat % 128) shift
        let acc := acc ||| group
        if b < 128 then return (acc, pos)
        else do
          let shift ← add shift 7
          readVarint src turns shift acc pos

/-- The most groups of a varint that are looked at: those of 64 bits and the one that is too
many. -/
def turnsPerVarint : Nat := 11

/-- The integer of a zigzag number. -/
def zigzag (n : Nat) : Except Stop Int64 := do
  let half ← shiftRight n 1
  let sign ← negate (Int64.ofNat (n % 2))
  return Int64.ofNat half ^^^ sign

/-- The value that a number of a stream stands for. -/
def ofNumber (signed : Bool) (n : Nat) : Except Stop Int64 :=
  if signed then zigzag n else .ok (Int64.ofNat n)

/-- The integer of a sign and a magnitude in `size` octets. -/
def ofSignMagnitude (size n : Nat) : Except Stop Int64 := do
  let bits ← mul size 8
  let top ← sub bits 1
  let sign ← shiftLeft 1 top
  if n &&& sign = 0 then return Int64.ofNat n
  else negate (Int64.ofNat (n &&& (UInt64.size - 1 - sign)))

/-- Adds the high digits of each patch to the number that its distance points at; high digits that
lie past the width of a word are dropped. -/
def applyPatches (width patchWidth mask : Nat) :
    (index : Nat) → (patches values : List Nat) → Except Stop (List Nat)
  | _, [], values => .ok values
  | index, p :: rest, values => do
    let gap ← shiftRight p patchWidth
    let patch := p &&& mask
    let index ← add index gap
    if gap = Patched.maxGap ∧ patch = 0 then applyPatches width patchWidth mask index rest values
    else match values[index]? with
      | none => .error (.fault .patchIndex)
      | some v =>
        let high := if width < 64 then patch <<< width % UInt64.size else 0
        applyPatches width patchWidth mask index rest (values.set index (v ||| high))

/-! ## Runs -/

/-- Reads a short repeat behind its first byte. -/
def readShortRepeat (signed : Bool) (src : Bytes) (first : UInt8) (pos : Nat) :
    Except Stop (List Int64 × Nat) := do
  let (n, pos) ← readBE src (first.toNat / 8 % 8 + 1) 0 pos
  let v ← ofNumber signed n
  return (List.replicate (first.toNat % 8 + Run.minRepeat) v, pos)

/-- Reads a direct run behind its first byte. -/
def readDirect (signed : Bool) (src : Bytes) (first : UInt8) (pos : Nat) :
    Except Stop (List Int64 × Nat) := do
  let (count, pos) ← readCount src first pos
  let (numbers, pos) ← unpack src count (Width.ofCode (Run.widthCode first)) pos
  let values ← numbers.mapM (ofNumber signed)
  return (values, pos)

/-- Reads a patched base run behind its first byte. -/
def readPatchedBase (src : Bytes) (first : UInt8) (pos : Nat) : Except Stop (List Int64 × Nat) := do
  let width := Width.ofCode (Run.widthCode first)
  let (count, pos) ← readCount src first pos
  let (third, pos) ← readByte src pos
  let (fourth, pos) ← readByte src pos
  let patchWidth := Width.ofCode (third.toNat % 32)
  let gapWidth := fourth.toNat / 32 + 1
  if 64 < patchWidth + gapWidth then .error (.fault .patchTooWide)
  else do
    let size := third.toNat / 32 + 1
    let (n, pos) ← readBE src size 0 pos
    let base ← ofSignMagnitude size n
    let (reduced, pos) ← unpack src count width pos
    let (patches, pos) ← unpack src (fourth.toNat % 32) (Width.fixed (patchWidth + gapWidth)) pos
    let top ← shiftLeft 1 patchWidth
    let mask ← sub top 1
    let values ← applyPatches width patchWidth mask 0 patches reduced
    return (values.map fun v => base + Int64.ofNat v, pos)

/-- Reads a delta run behind its first byte. -/
def readDelta (signed : Bool) (src : Bytes) (first : UInt8) (pos : Nat) :
    Except Stop (List Int64 × Nat) := do
  let code := Run.widthCode first
  let (count, pos) ← readCount src first pos
  let (n, pos) ← readVarint src turnsPerVarint 0 0 pos
  let start ← ofNumber signed n
  let (m, pos) ← readVarint src turnsPerVarint 0 0 pos
  let step ← zigzag m
  if code = 0 then return (Run.progression step start count, pos)
  else if count < 2 then .error (.fault .deltaRunShort)
  else do
    let more ← sub count 2
    let (magnitudes, pos) ← unpack src more (Width.ofCode code) pos
    return (start :: (start + step) :: Run.walk (step < 0) (start + step) magnitudes, pos)

/-- Reads the values of the run at a place. -/
def readRun (signed : Bool) (src : Bytes) (pos : Nat) : Except Stop (List Int64 × Nat) := do
  let (first, pos) ← readByte src pos
  match RunType.ofFirstByte first with
  | .shortRepeat => readShortRepeat signed src first pos
  | .direct => readDirect signed src first pos
  | .patchedBase => readPatchedBase src first pos
  | .delta => readDelta signed src first pos

end Machine

/-- A **decoder on a machine**: a byte string, the place of the next run, and the values of the last
run with the place of the one to give next. -/
structure MachineDecoder where
  /-- Whether the stream holds signed integers. -/
  signed : Bool
  /-- The byte string. -/
  src : Bytes
  /-- The place of the next run. -/
  pos : Nat := 0
  /-- The values of the last run. -/
  literals : List Int64 := []
  /-- How many of them were given. -/
  used : Nat := 0

namespace MachineDecoder

open Machine

/-- Whether values remain. -/
def hasMore (d : MachineDecoder) : Bool :=
  decide (d.used < d.literals.length) || decide (d.pos < d.src.length)

/-- Reads a run if all values of the last one were given. -/
def refill (d : MachineDecoder) : Except Stop MachineDecoder :=
  if d.used = d.literals.length then do
    let (literals, pos) ← readRun d.signed d.src d.pos
    return { d with pos, literals, used := 0 }
  else .ok d

/-- The next value. -/
def next (d : MachineDecoder) : Except Stop (Int64 × MachineDecoder) := do
  let d ← d.refill
  let v ← entry d.literals d.used
  let used ← add d.used 1
  return (v, { d with used })

/-- All values that remain, at most `turns` of them. -/
def gather : (turns : Nat) → MachineDecoder → Except Stop (List Int64)
  | 0, d => if d.hasMore then .error (.trap .endless) else .ok []
  | turns + 1, d =>
    if d.hasMore then do
      let (v, d) ← d.next
      let vs ← gather turns d
      return v :: vs
    else .ok []

/-- A decoder that could not read a run: it holds no values and stands where the run begins. -/
def unread (d : MachineDecoder) : MachineDecoder := { d with literals := [], used := 0 }

/-- Deals with the values of the last run that are left, or with as many as are still asked for if
these are fewer; returns how many are asked for behind them. -/
def chunk {α : Type} (deal : MachineDecoder → (count : Nat) → α → Except Stop α)
    (d : MachineDecoder) (remaining : Nat) (a : α) : Except Stop (Nat × α × MachineDecoder) := do
  let left ← sub d.literals.length d.used
  let count := min remaining left
  let a ← deal d count a
  let used ← add d.used count
  let remaining ← sub remaining count
  return (remaining, a, { d with used })

/-- Deals with values run by run until there are as many as were asked for, in at most `turns` runs.
What was dealt with before a failure is returned with it, and so is the decoder behind it. -/
def inChunks {α : Type} (deal : MachineDecoder → (count : Nat) → α → Except Stop α) :
    (turns remaining : Nat) → α → MachineDecoder → Except Stop Unit × α × MachineDecoder
  | 0, remaining, a, d => (if remaining = 0 then .ok () else .error (.trap .endless), a, d)
  | turns + 1, remaining, a, d =>
    if remaining = 0 then (.ok (), a, d)
    else match d.refill with
      | .error stop => (.error stop, a, d.unread)
      | .ok d =>
        match chunk deal d remaining a with
        | .error stop => (.error stop, a, d)
        | .ok (remaining, a, d) => inChunks deal turns remaining a d

/-- Puts the next `count` values of the last run behind others. -/
def copy (d : MachineDecoder) (count : Nat) (out : List Int64) : Except Stop (List Int64) := do
  let stop ← add d.used count
  let part ← slice d.literals d.used stop
  return out ++ part

/-- Puts the next `n` values behind others; the memory for them is asked for first. -/
def read (d : MachineDecoder) (n : Nat) (out : List Int64) :
    Except Stop Unit × List Int64 × MachineDecoder :=
  match allocate (8 * (out.length + n)) with
  | .error stop => (.error stop, out, d)
  | .ok () => inChunks copy n n out d

/-- Drops the next `n` values. -/
def skip (d : MachineDecoder) (n : Nat) : Except Stop Unit × MachineDecoder :=
  let (outcome, _, d) := inChunks (fun _ _ => .ok) n n () d
  (outcome, d)

/-- As many values as a bitmap has set bits from `start` up to but not including `stop`, behind
others. -/
def readNotNull (d : MachineDecoder) (notNull : Bitmap) (start stop : Nat) (out : List Int64) :
    Except Stop Nat × List Int64 × MachineDecoder :=
  match countBits notNull start stop with
  | .error stop => (.error stop, out, d)
  | .ok n =>
    let (outcome, out, d) := d.read n out
    (outcome.map fun _ => n, out, d)

/-- All values of a stream, at most 128 for each byte. -/
def decodeAll (signed : Bool) (src : Bytes) : Except Stop (List Int64) :=
  gather (128 * src.length) { signed, src }

end MachineDecoder

end ColumnFile
