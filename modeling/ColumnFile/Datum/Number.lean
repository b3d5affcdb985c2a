import ColumnFile.Datum.Basic
import ColumnFile.Decimal.Shortest

/-! # Numbers with a fraction

What is done with numbers that are kept as bit patterns: they are widened from single to double
precision, compared as numbers, and put into an order in which everything has a place.

* `Binary.widen` — single precision as double precision.
* `Binary.same` — equality of numbers: nothing equals what is no number, and the two zeros are
  equal.
* `Binary.rank` — a total order: the two zeros are equal, and what is no number is greatest.
* `Datum.toFloat64?`, `Datum.equal` — the same on data.
-/

namespace ColumnFile

namespace Binary

/-- The double-precision pattern of a single-precision one. What is no number stays none, and is
made quiet. -/
def widen (bits : UInt32) : UInt64 :=
  let n := bits.toNat
  let sign := if single.isNegative n then 1 <<< 63 else 0
  let shift := double.fractionBits - single.fractionBits
  let stored := single.storedExponent n
  let fraction := single.fraction n
  UInt64.ofNat <| sign +
    if single.isSpecial n then
      2047 <<< 52 ||| fraction <<< shift ||| if fraction = 0 then 0 else 1 <<< 51
    else if stored ≠ 0 then (stored + 896) <<< 52 ||| fraction <<< shift
    else if fraction = 0 then 0
    else
      let top := fraction.log2
      (top + 874) <<< 52 ||| fraction <<< (52 - top) % 1 <<< 52

/-- Whether two bit patterns are equal as numbers. -/
def same (f : Binary) (a b : Nat) : Bool :=
  !f.isNaN a && !f.isNaN b &&
    (a == b || (f.significand a == 0 && f.significand b == 0))

/-- The place of a double-precision pattern in the order of all of them. -/
def rank (bits : UInt64) : Int :=
  let n := bits.toNat
  if double.isNaN n then (1 <<< 63 : Nat)
  else if double.isNegative n then -(n % 1 <<< 63 : Nat)
  else n

end Binary

namespace Datum

/-- The double-precision number that a datum with a fraction stands for. -/
def toFloat64? : Datum → Option UInt64
  | float32 bits => some (Binary.widen bits)
  | float64 bits => some bits
  | _ => none

/-- Whether two data are equal as values: numbers with a fraction are compared as numbers, the
others are equal if they are the same. -/
def equal : Datum → Datum → Bool
  | float32 a, float32 b => Binary.single.same a.toNat b.toNat
  | float64 a, float64 b => Binary.double.same a.toNat b.toNat
  | a, b => a == b

end Datum

end ColumnFile
