/-! # Bit widths

The two ladders of bit widths that the integer codecs use, and the width that covers a list of
values.

* `Width.fixed` — the fine ladder, which the five-bit codes of run headers number.
* `Width.aligned` — the coarse ladder, at which values are physically packed.
* `Width.code`, `Width.ofCode` — a fine width and its code.
* `Width.required` — the fine width of a number.
* `Width.covering` — the fine width that leaves out at most a given number of values.
-/

namespace ColumnFile

namespace Width

/-- The fine ladder: every width up to 24, then ever coarser steps up to 64. -/
def fixedLadder : List Nat := List.range' 1 24 ++ [26, 28, 30, 32, 40, 48, 56, 64]

/-- The coarse ladder: widths that divide a byte or consist of whole bytes. -/
def alignedLadder : List Nat := [1, 2, 4, 8, 16, 24, 32, 40, 48, 56, 64]

/-- The lowest rung that reaches `n`; past the top the ladder stays at 64. -/
def roundUp (ladder : List Nat) (n : Nat) : Nat := (ladder.find? (n ≤ ·)).getD 64

/-- The lowest width of the fine ladder that reaches `n`. -/
def fixed (n : Nat) : Nat := roundUp fixedLadder n

/-- The lowest width of the coarse ladder that reaches `n`. -/
def aligned (n : Nat) : Nat := roundUp alignedLadder n

/-- The position of a width on the fine ladder. -/
def code (n : Nat) : Nat := fixedLadder.idxOf (fixed n)

/-- The fine width at a position; positions count modulo 32. -/
def ofCode (c : Nat) : Nat := fixedLadder.getD (c % 32) 64

/-- The number whose lowest `n` binary digits are one; no more than 64 of them. -/
def lowMask (n : Nat) : Nat := 1 <<< min n 64 - 1

/-- How many binary digits a number has. -/
def bitLength (n : Nat) : Nat := if n = 0 then 0 else n.log2 + 1

/-- The fine width that holds a number. -/
def required (n : Nat) : Nat := fixed (bitLength n)

/-- The narrowest fine width that all but `spare` of the values fit; zero when every value may be
spared. -/
def covering (spare : Int) (values : List Nat) : Nat :=
  let widths := values.map required
  (fixedLadder.reverse.find? fun w => spare < (widths.countP (w ≤ ·) : Nat)).getD 0

/-- How many of `n` values a percentile `p` leaves out: the product `n * (1 - p)` without its
fraction. -/
def spare (n : Nat) (p : Float) : Int := (n.toFloat * (1.0 - p)).toInt64.toInt

end Width

end ColumnFile
