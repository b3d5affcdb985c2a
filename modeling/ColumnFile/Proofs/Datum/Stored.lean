import ColumnFile.Datum.Stored
import ColumnFile.Proofs.Integer.Bits

/-! # Stored data reads back

* **`Bytes.ofInt64_toInt64`** — up to eight octets are the octets of their sign-extended integer.
* **`Datum.length_stored`** — a stored datum has the width of its kind.
* **`Datum.ofStored_stored`** — a datum that is stored reads back as itself, bit patterns
  included. -/

namespace ColumnFile

namespace Bytes

/-- Only the low octets of a number matter to them. -/
theorem ofNatLE_mod (width n : Nat) : ofNatLE width (n % 256 ^ width) = ofNatLE width n := by
  have h := ofNatLE_toNatLE (ofNatLE width n)
  rw [toNatLE_ofNatLE, length_ofNatLE] at h
  exact h

/-- The pattern of an integer is the integer around the 64-bit circle. -/
theorem toNat_toUInt64_ofInt (x : Int) : ((Int64.ofInt x).toUInt64.toNat : Int) = x % 2 ^ 64 := by
  have h : (Int64.ofInt x).toUInt64.toNat = (BitVec.ofInt 64 x).toNat := rfl
  rw [h, BitVec.toNat_ofInt]
  omega

/-- **Up to eight octets** are the octets of their sign-extended integer. -/
theorem ofInt64_toInt64 {bs : Bytes} (h : bs.length ≤ 8) : ofInt64 bs.length (toInt64 bs) = bs := by
  generalize hn : toNatLE bs = n
  generalize hk : 8 * bs.length = k
  have hlt : n < 2 ^ k := by
    rw [← hn, ← hk, Nat.pow_mul]
    exact toNatLE_lt bs
  have hdvd : ((2 ^ k : Nat) : Int) ∣ 2 ^ 64 := by
    exact_mod_cast Nat.pow_dvd_pow 2 (by omega : k ≤ 64)
  have hint : toInt64 bs = Int64.ofInt (Int.bmod n (2 ^ k)) := by
    rw [toInt64, hn, hk, Nat.one_shiftLeft]
  have hpattern := toNat_toUInt64_ofInt (Int.bmod n (2 ^ k))
  generalize hm : (Int64.ofInt (Int.bmod n (2 ^ k))).toUInt64.toNat = m at hpattern
  have hmod : m % 2 ^ k = n := by
    have hcast : ((m % 2 ^ k : Nat) : Int) = n := by
      rw [Int.natCast_emod, hpattern, Int.emod_emod_of_dvd _ hdvd, Int.bmod_emod]
      exact Int.emod_eq_of_lt (Int.natCast_nonneg n) (by exact_mod_cast hlt)
    exact_mod_cast hcast
  rw [ofInt64, hint, hm, ← ofNatLE_mod, ← Nat.pow_mul 2 8 bs.length, hk, hmod, ← hn,
    ofNatLE_toNatLE]

end Bytes

namespace Datum

/-- **A stored datum** has the width of its kind, if the kind has one. -/
theorem length_stored {kind : Kind} {d : Datum} {bs : Bytes} {width : Nat}
    (h : d.stored kind = .ok bs) (hw : kind.fixedWidth = some width) : bs.length = width := by
  cases kind <;> cases d <;> cases h <;> cases hw <;> rfl

/-- **A datum that is stored reads back** as itself, bit patterns included. -/
theorem ofStored_stored {kind : Kind} {d : Datum} {bs : Bytes} (h : d.stored kind = .ok bs) :
    ofStored kind bs = .ok d := by
  have hwidth : kind.fixedWidth.any (· ≠ bs.length) = false := by
    cases hw : kind.fixedWidth with
    | none => rfl
    | some width =>
        rw [Option.any_some, length_stored h hw]
        simp
  unfold ofStored
  rw [hwidth, if_neg Bool.false_ne_true]
  -- each kind stores one type of datum; what is left is that its pattern fits its octets
  cases kind <;> cases d <;> cases h <;> dsimp only
  · rename_i v
    cases v <;> rfl
  · rename_i v
    have hlt : v.toUInt8.toNat < 256 ^ 1 := v.toUInt8.toNat_lt
    rw [Bytes.toNatLE_ofNatLE, Nat.mod_eq_of_lt hlt, ← UInt8.toInt8_ofNat',
      UInt8.ofNat_toNat, Int8.toInt8_toUInt8]
  · rename_i v
    have hlt : v.toUInt16.toNat < 256 ^ 2 := v.toUInt16.toNat_lt
    rw [Bytes.toNatLE_ofNatLE, Nat.mod_eq_of_lt hlt, ← UInt16.toInt16_ofNat',
      UInt16.ofNat_toNat, Int16.toInt16_toUInt16]
  · rename_i v
    have hlt : v.toUInt32.toNat < 256 ^ 4 := v.toUInt32.toNat_lt
    rw [Bytes.toNatLE_ofNatLE, Nat.mod_eq_of_lt hlt, ← UInt32.toInt32_ofNat',
      UInt32.ofNat_toNat, Int32.toInt32_toUInt32]
  · rename_i v
    have hlt : v.toUInt64.toNat < 256 ^ 8 := v.toUInt64.toNat_lt
    rw [Bytes.toNatLE_ofNatLE, Nat.mod_eq_of_lt hlt, ← UInt64.toInt64_ofNat',
      UInt64.ofNat_toNat, Int64.toInt64_toUInt64]
  · rename_i v
    have hlt : v.toNat < 256 ^ 4 := v.toNat_lt
    rw [Bytes.toNatLE_ofNatLE, Nat.mod_eq_of_lt hlt, UInt32.ofNat_toNat]
  · rename_i v
    have hlt : v.toNat < 256 ^ 8 := v.toNat_lt
    rw [Bytes.toNatLE_ofNatLE, Nat.mod_eq_of_lt hlt, UInt64.ofNat_toNat]

end Datum

end ColumnFile
