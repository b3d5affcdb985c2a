/-! # Zigzag numbering

Signed integers numbered in the order 0, -1, 1, -2, 2, …, so that integers of small magnitude get
small numbers.

* `Zigzag.encode` — the number of an integer.
* `Zigzag.decode` — the integer of a number.
-/

namespace ColumnFile

namespace Zigzag

/-- The position of an integer in the order 0, -1, 1, -2, 2, … -/
def position : Int → Nat
  | .ofNat n => 2 * n
  | .negSucc n => 2 * n + 1

/-- The integer at a position of the order 0, -1, 1, -2, 2, … -/
def atPosition (n : Nat) : Int :=
  if n % 2 = 0 then .ofNat (n / 2) else .negSucc (n / 2)

@[simp] theorem atPosition_position (v : Int) : atPosition (position v) = v := by
  cases v with
  | ofNat n => simp [position, atPosition]
  | negSucc n =>
    have h : (2 * n + 1) % 2 = 1 := by omega
    have h' : (2 * n + 1) / 2 = n := by omega
    simp [position, atPosition, h, h']

@[simp] theorem position_atPosition (n : Nat) : position (atPosition n) = n := by
  unfold atPosition
  split
  · simp only [position]
    omega
  · simp only [position]
    omega

/-- The number of an integer. -/
def encode (v : Int64) : UInt64 := UInt64.ofNat (position v.toInt)

/-- The integer of a number. -/
def decode (u : UInt64) : Int64 := Int64.ofInt (atPosition u.toNat)

end Zigzag

end ColumnFile
