/-! # Byte strings

Byte strings as lists of octets, and the two ways in which numbers are laid out in them.

* `Bytes` — a finite sequence of octets.
* `Bytes.ofNatLE`, `Bytes.toNatLE` — little-endian numbers of a given width.
* `Bytes.ofNatBE`, `Bytes.toNatBE` — big-endian numbers of a given width.
* `Bytes.slice?` — a range of a byte string, if it lies inside.
* `Bytes.take?` — a byte string split in two.
* `Bytes.repeatBack` — growth by copies of what is there.
-/

namespace ColumnFile

/-- A **byte string**. -/
abbrev Bytes : Type := List UInt8

namespace Bytes

/-! ## Little-endian numbers -/

/-- The low `width` octets of `n`, the least significant one first. -/
def ofNatLE : (width : Nat) → (n : Nat) → Bytes
  | 0, _ => []
  | width + 1, n => UInt8.ofNat n :: ofNatLE width (n / 256)

@[simp] theorem length_ofNatLE (width n : Nat) : (ofNatLE width n).length = width := by
  induction width generalizing n with
  | zero => rfl
  | succ width ih => simp [ofNatLE, ih]

/-- The number whose octets are given, the least significant one first. -/
def toNatLE : Bytes → Nat
  | [] => 0
  | b :: rest => b.toNat + 256 * toNatLE rest

/-! ## Big-endian numbers -/

/-- The number whose octets are given, the most significant one first. -/
def toNatBE (bs : Bytes) : Nat :=
  bs.foldl (fun acc b => acc * 256 + b.toNat) 0

/-- The low `width` octets of `n`, the most significant one first. -/
def ofNatBE (width n : Nat) : Bytes :=
  (ofNatLE width n).reverse

@[simp] theorem length_ofNatBE (width n : Nat) : (ofNatBE width n).length = width := by
  simp [ofNatBE]

/-- Big-endian reading is little-endian reading of the reversed octets. -/
theorem toNatBE_eq (bs : Bytes) : toNatBE bs = toNatLE bs.reverse := by
  rw [toNatBE, ← List.foldr_reverse]
  induction bs.reverse with
  | nil => rfl
  | cons b rest ih =>
    simp only [List.foldr_cons, toNatLE, ih]
    omega

/-! ## Ranges -/

/-- The `len` octets from position `start` on, if the string reaches that far. -/
def slice? (bs : Bytes) (start len : Nat) : Option Bytes :=
  if start + len ≤ bs.length then some ((bs.drop start).take len) else none

/-- The first `n` octets and the rest, if there are that many. -/
def take? (bs : Bytes) (n : Nat) : Option (Bytes × Bytes) :=
  let front := bs.take n
  if front.length = n then some (front, bs.drop n) else none

@[simp] theorem take?_append (front rest : Bytes) :
    take? (front ++ rest) front.length = some (front, rest) := by
  simp [take?]

/-- What is left behind a front is no longer than all. -/
theorem length_le_of_take? {bs front rest : Bytes} {n : Nat}
    (h : take? bs n = some (front, rest)) : rest.length ≤ bs.length := by
  unfold take? at h
  dsimp only at h
  split at h
  · cases h
    simp
  · cases h

/-- A slice is as long as it was asked for. -/
theorem length_of_slice? {bs out : Bytes} {start len : Nat} (h : bs.slice? start len = some out) :
    out.length = len := by
  unfold slice? at h
  split at h
  · cases h
    simp only [List.length_take, List.length_drop]
    omega
  · cases h

/-! ## Copies -/

/-- Adds `count` octets to octets that are given the last one first. Each repeats the octet
`distance` places before it, which may be one that was just added. The distance is positive. -/
def repeatBack (distance count : Nat) (made : Bytes) : Bytes :=
  if distance = 0 ∨ count ≤ distance then (made.drop (distance - count)).take count ++ made
  else repeatBack distance (count - distance) (made.take distance ++ made)
termination_by count

end Bytes

end ColumnFile
