import ColumnFile.Integer.Varint
import ColumnFile.Proofs.Fault
import Mathlib.Algebra.Ring.Int.Defs
import Mathlib.Algebra.Ring.Nat

/-! # Variable-length integers read back

* **`Zigzag.decode_encode`** — zigzag numbering loses no 64-bit integer.
* **`Varint.Delimited`** — bytes that end a number; **`Varint.delimited_digits`** — those of a
  number do.
* **`Varint.readDigits_of_delimited`**, **`Varint.of_readDigits`** — a reader takes such bytes and
  no others.
* **`Varint.readDigits_digits`** — a natural number reads back when the limit allows its groups.
* **`Varint.read_encode`**, **`Varint.readSigned_encodeSigned`** — 64-bit integers read back,
  whatever follows them. -/

namespace ColumnFile

namespace Zigzag

/-- A 64-bit integer has a 64-bit position. -/
theorem position_lt {v : Int} (hlow : -2 ^ 63 ≤ v) (hhigh : v < 2 ^ 63) : position v < 2 ^ 64 := by
  cases v with
  | ofNat n =>
      rw [Int.ofNat_eq_natCast] at hhigh
      rw [position]
      omega
  | negSucc n =>
      rw [position]
      omega

/-- **Zigzag numbering** loses no integer. -/
@[simp] theorem decode_encode (v : Int64) : decode (encode v) = v := by
  have hlt : position v.toInt < 2 ^ 64 := position_lt v.le_toInt v.toInt_lt
  rw [encode, decode, UInt64.toNat_ofNat_of_lt' hlt, atPosition_position, Int64.ofInt_toInt]

end Zigzag

namespace Varint

variable {b : UInt8} {bs rest taken : Bytes} {limit n : Nat}

/-! ## (1) The bytes of a number -/

/-- The number whose groups are given, the lowest first. -/
def ofGroups : Bytes → Nat
  | [] => 0
  | b :: bs => b.toNat % 128 + 128 * ofGroups bs

/-- A single group is its own number. -/
theorem ofGroups_singleton (h : b < 128) : ofGroups [b] = b.toNat := by
  have hb : b.toNat < 128 := UInt8.lt_iff_toNat_lt.mp h
  rw [ofGroups, ofGroups, Nat.mod_eq_of_lt hb, Nat.mul_zero, Nat.add_zero]

/-- **Bytes delimit a number**: the last of them is the first without its high bit. -/
def Delimited (bs : Bytes) : Prop :=
  ∃ more last, bs = more ++ [last] ∧ (∀ b ∈ more, 128 ≤ b) ∧ last < 128

/-- No octets are no number. -/
theorem not_delimited_nil : ¬ Delimited [] := by
  rintro ⟨more, last, hnil, -⟩
  exact absurd hnil.symm (List.append_ne_nil_of_right_ne_nil _ (List.cons_ne_nil _ _))

/-- A number ends at the first octet below 128. -/
theorem delimited_cons_iff : Delimited (b :: bs) ↔ b < 128 ∧ bs = [] ∨ 128 ≤ b ∧ Delimited bs := by
  constructor
  · rintro ⟨more, last, hbs, hmore, hlast⟩
    cases more with
    | nil =>
        cases hbs
        exact .inl ⟨hlast, rfl⟩
    | cons c more =>
        cases hbs
        exact .inr ⟨hmore b List.mem_cons_self, more, last, rfl,
          fun c hc => hmore c (List.mem_cons_of_mem b hc), hlast⟩
  · rintro (⟨hlast, rfl⟩ | ⟨hb, more, last, rfl, hmore, hlast⟩)
    · exact ⟨[], b, rfl, fun c hc => absurd hc List.not_mem_nil, hlast⟩
    · exact ⟨b :: more, last, rfl, List.forall_mem_cons.mpr ⟨hb, hmore⟩, hlast⟩

/-- **The bytes of a number** delimit it, by induction on its groups. -/
theorem delimited_digits (n : Nat) : Delimited (digits n) ∧ ofGroups (digits n) = n := by
  have h128 : (128 : UInt8).toNat = 128 := rfl
  induction n using digits.induct with
  | case1 n hlow =>
      have hbyte : (UInt8.ofNat n).toNat = n := by
        rw [UInt8.toNat_ofNat', Nat.mod_eq_of_lt (by omega)]
      have hlast : UInt8.ofNat n < 128 := by
        rw [UInt8.lt_iff_toNat_lt, hbyte]
        exact hlow
      rw [digits, if_pos hlow, ofGroups_singleton hlast, hbyte]
      exact ⟨delimited_cons_iff.mpr (.inl ⟨hlast, rfl⟩), rfl⟩
  | case2 n hhigh ih =>
      have hbyte : (UInt8.ofNat (n % 128 + 128)).toNat = n % 128 + 128 := by
        rw [UInt8.toNat_ofNat', Nat.mod_eq_of_lt (by omega)]
      have hmore : 128 ≤ UInt8.ofNat (n % 128 + 128) := by
        rw [UInt8.le_iff_toNat_le, hbyte]
        omega
      rw [digits, if_neg hhigh, ofGroups, ih.2, hbyte]
      exact ⟨delimited_cons_iff.mpr (.inr ⟨hmore, ih.1⟩), by omega⟩

/-- A number has a digit. -/
theorem length_digits_pos (n : Nat) : 0 < (digits n).length := by
  unfold digits
  split
  · exact Nat.one_pos
  · exact Nat.succ_pos _

/-- A number has no more groups than it needs. -/
theorem length_digits_le (h : n < 128 ^ (limit + 1)) :
    (digits n).length ≤ limit + 1 := by
  induction limit generalizing n with
  | zero =>
      rw [digits, if_pos (by omega)]
      exact Nat.le_refl 1
  | succ limit ih =>
      rw [digits]
      by_cases hn : n < 128
      · rw [if_pos hn]
        exact Nat.succ_le_succ (Nat.zero_le _)
      · have hhigh : n / 128 < 128 ^ (limit + 1) := by
          rw [Nat.div_lt_iff_lt_mul (by decide), ← Nat.pow_succ]
          exact h
        rw [if_neg hn, List.length_cons]
        exact Nat.succ_le_succ (ih hhigh)

/-- A word takes up at most ten octets. -/
theorem length_encode_le (u : UInt64) : (encode u).length ≤ 10 :=
  length_digits_le (Nat.lt_of_lt_of_le u.toNat_lt (by decide))

/-! ## (2) Reading -/

/-- **A number is read** off bytes that delimit one, if they are not too many. -/
theorem readDigits_of_delimited (rest : Bytes) (h : Delimited taken)
    (hlimit : taken.length ≤ limit) :
    readDigits limit (taken ++ rest) = .ok (ofGroups taken, rest) := by
  induction taken generalizing limit with
  | nil => exact absurd h not_delimited_nil
  | cons b taken ih =>
      cases limit with
      | zero => cases hlimit
      | succ limit =>
          rw [List.cons_append, readDigits]
          rcases delimited_cons_iff.mp h with ⟨hlast, rfl⟩ | ⟨hmore, htaken⟩
          · rw [if_pos hlast, ofGroups_singleton hlast]
            rfl
          · rw [if_neg (UInt8.not_lt.mpr hmore), ih htaken (Nat.le_of_succ_le_succ hlimit)]
            rfl

/-- **What was read** are bytes that delimit a number, by induction on how many of them there may
be. -/
theorem of_readDigits (h : readDigits limit bs = .ok (n, rest)) :
    ∃ taken, bs = taken ++ rest ∧ taken.length ≤ limit ∧ Delimited taken ∧ n = ofGroups taken := by
  induction limit generalizing bs n with
  | zero => cases bs <;> cases h
  | succ limit ih =>
      cases bs with
      | nil => cases h
      | cons b tail =>
          rw [readDigits] at h
          by_cases hlast : b < 128
          · rw [if_pos hlast] at h
            cases h
            exact ⟨[b], rfl, Nat.succ_le_succ (Nat.zero_le _),
              delimited_cons_iff.mpr (.inl ⟨hlast, rfl⟩), (ofGroups_singleton hlast).symm⟩
          · rw [if_neg hlast] at h
            obtain ⟨⟨high, rest'⟩, hhigh, h⟩ := bind_eq_ok h
            cases h
            obtain ⟨taken, rfl, hlimit, htaken, rfl⟩ := ih hhigh
            exact ⟨b :: taken, rfl, Nat.succ_le_succ hlimit,
              delimited_cons_iff.mpr (.inr ⟨UInt8.not_lt.mp hlast, htaken⟩), rfl⟩

/-- **A natural number reads back**, whatever follows it, when it has no more groups than the
limit. -/
theorem readDigits_digits (rest : Bytes) (h : n < 128 ^ (limit + 1)) :
    readDigits (limit + 1) (digits n ++ rest) = .ok (n, rest) := by
  obtain ⟨hdelimited, hvalue⟩ := delimited_digits n
  rw [readDigits_of_delimited rest hdelimited (length_digits_le h), hvalue]

/-- **An unsigned integer reads back**, whatever follows it. -/
theorem read_encode (u : UInt64) (rest : Bytes) : read (encode u ++ rest) = .ok (u, rest) := by
  have hlt : u.toNat < 128 ^ (9 + 1) := Nat.lt_of_lt_of_le u.toNat_lt (by decide)
  rw [read, encode, maxLength, readDigits_digits rest hlt]
  dsimp only [bind, Except.bind, pure, Except.pure]
  rw [UInt64.ofNat_toNat]

/-- **A signed integer reads back**, whatever follows it. -/
theorem readSigned_encodeSigned (v : Int64) (rest : Bytes) :
    readSigned (encodeSigned v ++ rest) = .ok (v, rest) := by
  rw [readSigned, encodeSigned, read_encode]
  dsimp only [bind, Except.bind, pure, Except.pure]
  rw [Zigzag.decode_encode]

end Varint

end ColumnFile
