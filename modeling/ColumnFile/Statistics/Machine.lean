import ColumnFile.Machine
import ColumnFile.Statistics.Basic

/-! # Statistics on a machine

The questions that are put to the statistics of a column once more, with operations that stop the
program when an operand is out of range. The statistics may be any that a file can hold, and not
only those that were collected.

* `Machine.containsFrom`, `Machine.contains` — the bits of a digest, up to the first that is not
  set.
* `Machine.mightContain`, `Machine.mayContain` — data.
-/

namespace ColumnFile.Machine

/-- Whether the bits of a digest from the `i`th on, `turns` of them, are set in a filter of `bits`
bits; they are looked up one after another as long as they are. -/
def containsFrom (f : BloomFilter) (bits : Nat) (h : UInt64) : (turns i : Nat) → Except Stop Bool
  | 0, _ => .ok true
  | turns + 1, i => do
    let p ← rem (h + UInt64.ofNat i * (BloomFilter.swapHalves h ||| 1)).toNat bits
    let word ← element f.words (p / 64)
    let bit ← shiftLeft 1 (p % 64)
    if word.toNat &&& bit = 0 then .ok false else containsFrom f bits h turns (i + 1)

/-- Whether a digest may have been added to a filter. -/
def contains (f : BloomFilter) (h : UInt64) : Except Stop Bool := do
  let bits ← mul f.words.size 64
  containsFrom f bits h f.hashes 0

/-- Whether a datum may have been added to a filter. -/
def mightContain [BloomScheme] (f : BloomFilter) (d : Datum) : Except Stop Bool :=
  match d.digestKey? with
  | some key => contains f (BloomScheme.digest key)
  | none => .ok true

/-- Whether a datum may be among the values of a column. The filter is asked last, and only if the
range does not rule the datum out. -/
def mayContain [BloomScheme] (s : ColumnStatistics) (d : Datum) : Except Stop Bool :=
  if d.isNull then .ok s.hasNull
  else if s.nonNull = 0 then .ok false
  else if s.range.all (·.mayContain d) then
    match s.bloom with
    | some f => mightContain f d
    | none => .ok true
  else .ok false

end ColumnFile.Machine
