import ColumnFile.Buffer
import ColumnFile.Integer.Packing

/-! # Packing into a buffer

Runs of integers are packed with the words of a machine. Numbers of whole octets are appended as
they are; others are put bit by bit into a byte that is pushed when it is full, so a number may lie
across several bytes.

* `BitWriter` — a buffer and the byte that is being filled.
* `BitWriter.fill`, `BitWriter.put` — a number, as much of it as fills bytes, and all of it.
* `Packing.write` — a run.
-/

namespace ColumnFile

/-- A **writer of bits**: a buffer, and the byte that is to follow in it. -/
structure BitWriter where
  /-- The bytes that are full. -/
  out : Buffer
  /-- The byte that is being filled, from its highest bit on. -/
  current : UInt8 := 0
  /-- How many of its bits are still free. -/
  bitsLeft : Nat := 8
  /-- Some are, or the byte would have been pushed. -/
  bitsLeft_pos : 0 < bitsLeft := by decide
  /-- A byte has no more. -/
  bitsLeft_le : bitsLeft ≤ 8 := by decide

namespace BitWriter

/-- The word whose lowest `n` bits are set; all of them from 64 on. -/
def lowMask (n : Nat) : UInt64 :=
  if 64 ≤ n then UInt64.ofNat (UInt64.size - 1) else 1 <<< UInt64.ofNat n - 1

/-- Puts the highest bits of a number of `n` bits into bytes, as long as it does not fit what is
free of the last of them; returns the rest of the number and its width. -/
def fill (w : BitWriter) (value : UInt64) (n : Nat) : BitWriter × UInt64 × Nat :=
  if w.bitsLeft < n then
    let high := value >>> UInt64.ofNat (n - w.bitsLeft) &&& lowMask w.bitsLeft
    let n := n - w.bitsLeft
    fill { out := w.out.push (w.current ||| high.toUInt8) } (value &&& lowMask n) n
  else (w, value, n)
termination_by n
decreasing_by
  have hpos := w.bitsLeft_pos
  omega

/-- Puts the lowest `width` bits of a word. -/
def put (w : BitWriter) (width : Nat) (v : UInt64) : BitWriter :=
  let (w, value, n) := w.fill (v &&& lowMask width) width
  let left := w.bitsLeft - n
  let current := w.current ||| (value <<< UInt64.ofNat left).toUInt8
  if h : left = 0 then { out := w.out.push current }
  else
    { out := w.out, current, bitsLeft := left
      bitsLeft_pos := Nat.pos_of_ne_zero h
      bitsLeft_le := Nat.le_trans (Nat.sub_le _ _) w.bitsLeft_le }

/-- Pushes the byte that is being filled, if it holds any bits. -/
def finish (w : BitWriter) : Buffer := if w.bitsLeft ≠ 8 then w.out.push w.current else w.out

end BitWriter

namespace Packing

/-- Packs a run into a buffer at a nominal width; values of width zero take nothing. -/
def write (out : Buffer) (values : List Int64) (width : Nat) : Buffer :=
  if width = 0 ∨ values = [] then out
  else
    let width := Width.aligned width
    let out := out.reserve ((values.length * width + 7) / 8)
    if width % 8 = 0 then
      values.foldl (fun out v =>
        out.append ((Bytes.ofNatBE 8 v.toUInt64.toNat).drop (8 - width / 8))) out
    else (values.foldl (fun (w : BitWriter) v => w.put width v.toUInt64) { out }).finish

end Packing

end ColumnFile
