/-! # Shortest decimals

The shortest decimal that reads back as a given binary floating-point number, and the nearest one of
those. A number is a fraction; the numbers that round to it fill an interval, the ends included when
its significand is even.

* `Decimal` — digits and the power of ten of the first one.
* `Binary` — a binary format: its digits and its least exponent.
* `Binary.shortest` — the shortest decimal of a positive number.
-/

namespace ColumnFile

/-- A **decimal**: digits, and the power of ten that the first digit counts. -/
structure Decimal where
  /-- The digits, the first one not zero. -/
  digits : List Char
  /-- The power of ten of the first digit. -/
  exponent : Int
deriving DecidableEq, Repr

/-- A **binary floating-point format**. -/
structure Binary where
  /-- How many digits the stored fraction has. -/
  fractionBits : Nat
  /-- How many digits the stored exponent has. -/
  exponentBits : Nat

namespace Binary

/-- Single precision. -/
def single : Binary := ⟨23, 8⟩

/-- Double precision. -/
def double : Binary := ⟨52, 11⟩

/-- Whether a bit pattern is negative. -/
def isNegative (f : Binary) (bits : Nat) : Bool := bits.testBit (f.fractionBits + f.exponentBits)

/-- The stored exponent of a bit pattern. -/
def storedExponent (f : Binary) (bits : Nat) : Nat :=
  bits >>> f.fractionBits % 1 <<< f.exponentBits

/-- The stored fraction of a bit pattern. -/
def fraction (f : Binary) (bits : Nat) : Nat := bits % 1 <<< f.fractionBits

/-- Whether a bit pattern is infinite or no number: its stored exponent is all ones. -/
def isSpecial (f : Binary) (bits : Nat) : Bool :=
  f.storedExponent bits == 1 <<< f.exponentBits - 1

/-- Whether a bit pattern is no number. -/
def isNaN (f : Binary) (bits : Nat) : Bool := f.isSpecial bits && f.fraction bits != 0

/-- The significand of a number, as an integer. -/
def significand (f : Binary) (bits : Nat) : Nat :=
  if f.storedExponent bits = 0 then f.fraction bits
  else 1 <<< f.fractionBits + f.fraction bits

/-- The power of two that the significand counts. -/
def scale (f : Binary) (bits : Nat) : Int :=
  (max 1 (f.storedExponent bits) : Nat) - (1 <<< (f.exponentBits - 1) - 1 + f.fractionBits : Nat)

/-- The power of ten of the first digit of the fraction `num / den`. -/
def leadingPower (num den : Nat) : Int :=
  if den ≤ num then ((Nat.toDigits 10 (num / den)).length : Int) - 1
  else -((Nat.toDigits 10 ((den + num - 1) / num - 1)).length : Int)

/-- The most digits that a number needs. -/
def maxDigits : Nat := 17

/-- The decimal `n · 10 ^ power`, without zeros at its end. -/
def decimalOf (n : Nat) (power : Int) : Decimal :=
  let all := Nat.toDigits 10 n
  { digits := (all.reverse.dropWhile (· == '0')).reverse
    exponent := power + all.length - 1 }

/-- The nearest of the decimals of `count` digits or less that lie between `low` and `high`, which
are the ends of the interval around `num`, all of them over `den`. -/
def onGrid? (num low high den : Nat) (closed : Bool) (power : Int) : Option Decimal :=
  let up := Nat.pow 10 power.toNat
  let down := Nat.pow 10 (-power).toNat
  let floor := num * down / (den * up)
  let inside (n : Nat) : Bool :=
    let at_ := n * up * den
    if closed then low * down ≤ at_ && at_ ≤ high * down
    else low * down < at_ && at_ < high * down
  let below := floor != 0 && inside floor
  let above := inside (floor + 1)
  let nearerAbove := num * down - floor * up * den ≥ (floor + 1) * up * den - num * down
  if above && (!below || nearerAbove) then some (decimalOf (floor + 1) power)
  else if below then some (decimalOf floor power)
  else none

/-- The first grid, from coarse to fine, that has a decimal in the interval. -/
def searchGrids (num low high den : Nat) (closed : Bool) (power : Int) : (count : Nat) → Decimal
  | 0 => decimalOf (num / den) 0
  | count + 1 =>
    (onGrid? num low high den closed power).getD
      (searchGrids num low high den closed (power - 1) count)

/-- The shortest decimal of a positive number. -/
def shortest (f : Binary) (bits : Nat) : Decimal :=
  let m := f.significand bits
  let q := f.scale bits - 2
  let up := 1 <<< q.toNat
  let den := 1 <<< (-q).toNat
  let num := 4 * m * up
  let gap := if f.fraction bits = 0 ∧ 1 < f.storedExponent bits then 1 else 2
  searchGrids num ((4 * m - gap) * up) ((4 * m + 2) * up) den (m % 2 = 0) (leadingPower num den)
    maxDigits

end Binary

end ColumnFile
