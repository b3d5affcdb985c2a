import ColumnFile.Bytes

/-! # Octets as digits

Octets as texts of hexadecimal digits, two for each.

* `Bytes.hex` — the digits of octets.
* `Bytes.ofHex?` — the octets of digits.
* `Bytes.ofHex?_hex` — writing and reading back keeps the octets.
-/

namespace ColumnFile

namespace Bytes

/-- The value of a hexadecimal digit. -/
def digitValue? (c : Char) : Option Nat :=
  if '0' ≤ c ∧ c ≤ '9' then some (c.toNat - '0'.toNat)
  else if 'a' ≤ c ∧ c ≤ 'f' then some (c.toNat - 'a'.toNat + 10)
  else none

/-- The digits of octets. -/
def hexChars : Bytes → List Char
  | [] => []
  | b :: rest => Nat.digitChar (b.toNat / 16) :: Nat.digitChar (b.toNat % 16) :: hexChars rest

/-- The octets of digits. -/
def ofHexChars? : List Char → Option Bytes
  | [] => some []
  | [_] => none
  | a :: b :: rest => do
    return UInt8.ofNat ((← digitValue? a) * 16 + (← digitValue? b)) :: (← ofHexChars? rest)

/-- The text of octets. -/
def hex (bs : Bytes) : String := String.ofList bs.hexChars

/-- The octets of a text. -/
def ofHex? (s : String) : Option Bytes := ofHexChars? s.toList

/-- A digit is read back. -/
theorem digitValue?_digitChar : ∀ n < 16, digitValue? (Nat.digitChar n) = some n := by decide

@[simp] theorem ofHex?_hex (bs : Bytes) : ofHex? bs.hex = some bs := by
  rw [ofHex?, hex, String.toList_ofList]
  induction bs with
  | nil => rfl
  | cons b rest ih =>
    have high : b.toNat / 16 < 16 := by have := b.toNat_lt; omega
    simp only [hexChars, ofHexChars?, digitValue?_digitChar _ high,
      digitValue?_digitChar _ (Nat.mod_lt _ (by decide : 0 < 16)), ih, Option.bind_eq_bind,
      Option.bind_some, Option.pure_def, Nat.div_add_mod', UInt8.ofNat_toNat]

end Bytes

end ColumnFile
