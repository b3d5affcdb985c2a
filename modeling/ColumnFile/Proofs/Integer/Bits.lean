import ColumnFile.Bytes
import Mathlib.Algebra.Ring.Int.Defs
import Mathlib.Algebra.Ring.Nat

/-! # Numbers and byte strings as lists of bits

The view in which bit packing is plain concatenation: a number of a given width and a byte string
are both lists of bits, the most significant bit first.

* **`bitsOf width n`** — the low `width` bits of `n`.
* **`Bytes.bits bs`** — the bits of a byte string; `bits_ofNatBE` is the view of a big-endian
  number.
* **`bitsOf_inj`**, **`flatMap_bitsOf_inj`** — numbers that fit their width are told apart by their
  bits, one by one and as a run of one width. -/

namespace ColumnFile

/-! ## (1) The bits of a number -/

/-- **The low `width` bits of `n`**, the most significant one first. -/
def bitsOf : (width : Nat) → (n : Nat) → List Bool
  | 0, _ => []
  | width + 1, n => n.testBit width :: bitsOf width n

@[simp] theorem bitsOf_zero (n : Nat) : bitsOf 0 n = [] := rfl

/-- The highest bit comes first. -/
theorem bitsOf_succ (width n : Nat) : bitsOf (width + 1) n = n.testBit width :: bitsOf width n :=
  rfl

@[simp] theorem length_bitsOf (width n : Nat) : (bitsOf width n).length = width := by
  induction width with
  | zero => rfl
  | succ width ih => rw [bitsOf_succ, List.length_cons, ih]

/-- **The bits split at any place**: `a` high bits in front of `b` low ones. -/
theorem bitsOf_add (a b n : Nat) : bitsOf (a + b) n = bitsOf a (n >>> b) ++ bitsOf b n := by
  induction a with
  | zero => rw [Nat.zero_add, bitsOf_zero, List.nil_append]
  | succ a ih =>
      rw [Nat.succ_add, bitsOf_succ, bitsOf_succ, ih, Nat.testBit_shiftRight, Nat.add_comm b a]
      rfl

/-- What lies at `k` and above does not show in the bits below `width ≤ k`. -/
theorem bitsOf_mod {width k : Nat} (h : width ≤ k) (n : Nat) :
    bitsOf width (n % 2 ^ k) = bitsOf width n := by
  induction width with
  | zero => rfl
  | succ width ih =>
      have hb : (n % 2 ^ k).testBit width = n.testBit width := by
        rw [Nat.testBit_mod_two_pow, decide_eq_true (by omega), Bool.true_and]
      rw [bitsOf_succ, bitsOf_succ, hb, ih (by omega)]

@[simp] theorem bitsOf_of_zero (width : Nat) : bitsOf width 0 = List.replicate width false := by
  induction width with
  | zero => rfl
  | succ width ih => rw [bitsOf_succ, ih, Nat.zero_testBit, List.replicate_succ]

/-- **Writing a value behind `held` bits**: the bits held so far, then those of the value. -/
theorem bitsOf_shiftLeft_add (held width acc v : Nat) :
    bitsOf (held + width) (acc <<< width + v % 2 ^ width) = bitsOf held acc ++ bitsOf width v := by
  have hv : v % 2 ^ width < 2 ^ width := Nat.mod_lt _ (Nat.two_pow_pos width)
  have hhigh : (acc <<< width + v % 2 ^ width) >>> width = acc := by
    rw [Nat.shiftRight_eq_div_pow, Nat.shiftLeft_eq, Nat.mul_comm,
      Nat.mul_add_div (Nat.two_pow_pos width), Nat.div_eq_of_lt hv, Nat.add_zero]
  have hlow : (acc <<< width + v % 2 ^ width) % 2 ^ width = v % 2 ^ width := by
    rw [Nat.shiftLeft_eq, Nat.mul_comm, Nat.mul_add_mod, Nat.mod_mod]
  rw [bitsOf_add, hhigh, ← bitsOf_mod (Nat.le_refl width) (_ + _), hlow,
    bitsOf_mod (Nat.le_refl width)]

/-- A value written behind a number of `held` bits makes a number of `held + width` bits. -/
theorem shiftLeft_add_lt {held width acc v : Nat} (hacc : acc < 2 ^ held) (hv : v < 2 ^ width) :
    acc <<< width + v < 2 ^ (held + width) := by
  rw [Nat.shiftLeft_eq, Nat.pow_add]
  calc acc * 2 ^ width + v < acc * 2 ^ width + 2 ^ width := Nat.add_lt_add_left hv _
    _ = (acc + 1) * 2 ^ width := by rw [Nat.succ_mul]
    _ ≤ 2 ^ held * 2 ^ width := Nat.mul_le_mul_right _ hacc

/-- **Numbers that fit their width are told apart by their bits.** -/
theorem bitsOf_inj {width a b : Nat} (ha : a < 2 ^ width) (hb : b < 2 ^ width)
    (h : bitsOf width a = bitsOf width b) : a = b := by
  have hbits : ∀ i, i < width → a.testBit i = b.testBit i := by
    clear ha hb
    induction width with
    | zero =>
        intro i hi
        omega
    | succ width ih =>
        rw [bitsOf_succ, bitsOf_succ, List.cons.injEq] at h
        obtain ⟨hhead, htail⟩ := h
        intro i hi
        by_cases hw : i = width
        · rw [hw, hhead]
        · exact ih htail i (by omega)
  apply Nat.eq_of_testBit_eq
  intro i
  by_cases hi : i < width
  · exact hbits i hi
  · have hpow : 2 ^ width ≤ 2 ^ i := Nat.pow_le_pow_right (by omega) (by omega)
    rw [Nat.testBit_lt_two_pow (by omega), Nat.testBit_lt_two_pow (by omega)]

/-- **Runs of one width are told apart by their bits**, when they have equally many numbers. -/
theorem flatMap_bitsOf_inj {width : Nat} {vs ws : List Nat} (hlen : vs.length = ws.length)
    (hv : ∀ v ∈ vs, v < 2 ^ width) (hw : ∀ w ∈ ws, w < 2 ^ width)
    (h : vs.flatMap (bitsOf width) = ws.flatMap (bitsOf width)) : vs = ws := by
  induction vs generalizing ws with
  | nil =>
      cases ws with
      | nil => rfl
      | cons w ws => simp at hlen
  | cons v vs ih =>
      cases ws with
      | nil => simp at hlen
      | cons w ws =>
          rw [List.flatMap_cons, List.flatMap_cons] at h
          obtain ⟨hhead, htail⟩ := List.append_inj h (by rw [length_bitsOf, length_bitsOf])
          have hvw : v = w :=
            bitsOf_inj (hv v List.mem_cons_self) (hw w List.mem_cons_self) hhead
          have hrest : vs = ws :=
            ih (by simpa using hlen) (fun x hx => hv x (List.mem_cons_of_mem _ hx))
              (fun x hx => hw x (List.mem_cons_of_mem _ hx)) htail
          rw [hvw, hrest]

/-- As many bits as all numbers together have. -/
theorem length_flatMap_bitsOf (width : Nat) (vs : List Nat) :
    (vs.flatMap (bitsOf width)).length = vs.length * width := by
  induction vs with
  | nil => simp
  | cons v vs ih =>
      rw [List.flatMap_cons, List.length_append, length_bitsOf, ih, List.length_cons, Nat.succ_mul,
        Nat.add_comm]

namespace Bytes

/-! ## (2) The bits of a byte string -/

/-- **The bits of a byte string**, byte by byte. -/
def bits (bs : Bytes) : List Bool := bs.flatMap fun b => bitsOf 8 b.toNat

@[simp] theorem bits_nil : bits [] = [] := rfl

@[simp] theorem bits_cons (b : UInt8) (rest : Bytes) :
    bits (b :: rest) = bitsOf 8 b.toNat ++ bits rest := rfl

@[simp] theorem bits_append (front rest : Bytes) : bits (front ++ rest) = bits front ++ bits rest :=
  List.flatMap_append

@[simp] theorem length_bits (bs : Bytes) : (bits bs).length = 8 * bs.length := by
  induction bs with
  | nil => rfl
  | cons b rest ih =>
      rw [bits_cons, List.length_append, length_bitsOf, ih, List.length_cons]
      omega

/-- The last octet of a big-endian number holds its lowest digits. -/
theorem ofNatBE_succ (width n : Nat) :
    ofNatBE (width + 1) n = ofNatBE width (n / 256) ++ [UInt8.ofNat n] := by
  rw [ofNatBE, ofNatLE, List.reverse_cons, ofNatBE]

/-- **The bits of a big-endian number** are its own low bits. -/
theorem bits_ofNatBE (width n : Nat) : bits (ofNatBE width n) = bitsOf (8 * width) n := by
  induction width generalizing n with
  | zero => rfl
  | succ width ih =>
      have hb : bitsOf 8 (UInt8.ofNat n).toNat = bitsOf 8 n := by
        rw [UInt8.toNat_ofNat']
        exact bitsOf_mod (Nat.le_refl 8) n
      have hshift : n / 256 = n >>> 8 := by rw [Nat.shiftRight_eq_div_pow]
      rw [ofNatBE_succ, bits_append, ih, bits_cons, bits_nil, List.append_nil, hb, hshift,
        ← bitsOf_add, Nat.mul_succ]

/-- Octets are a number of their length. -/
theorem toNatLE_lt (bs : Bytes) : toNatLE bs < 256 ^ bs.length := by
  induction bs with
  | nil => simp [toNatLE]
  | cons b rest ih =>
      have hb := b.toNat_lt
      simp only [toNatLE, List.length_cons, Nat.pow_succ]
      omega

/-- As many numbers fit `width` octets as their digits can tell apart. -/
theorem one_shiftLeft_octets (width : Nat) : 1 <<< (8 * width) = 256 ^ width := by
  rw [Nat.one_shiftLeft, Nat.pow_mul]

/-- **Writing `width` octets and reading them back** keeps the number modulo `256 ^ width`. -/
@[simp] theorem toNatLE_ofNatLE (width n : Nat) : toNatLE (ofNatLE width n) = n % 256 ^ width := by
  induction width generalizing n with
  | zero => simp [ofNatLE, toNatLE, Nat.mod_one]
  | succ width ih =>
      have hpow : 256 ^ (width + 1) = 256 * 256 ^ width := by rw [Nat.pow_succ, Nat.mul_comm]
      rw [ofNatLE, toNatLE, ih, UInt8.toNat_ofNat', hpow, Nat.mod_mul]

/-- Octets are a number of their length. -/
theorem toNatBE_lt (bs : Bytes) : toNatBE bs < 256 ^ bs.length := by
  rw [toNatBE_eq, ← List.length_reverse]
  exact toNatLE_lt bs.reverse

/-- The octets of a little-endian number are those it was read from. -/
@[simp] theorem ofNatLE_toNatLE (bs : Bytes) : ofNatLE bs.length (toNatLE bs) = bs := by
  induction bs with
  | nil => rfl
  | cons b rest ih =>
      have hb : b.toNat < 256 := b.toNat_lt
      have hdiv : (b.toNat + 256 * toNatLE rest) / 256 = toNatLE rest := by omega
      have hmod : UInt8.ofNat (b.toNat + 256 * toNatLE rest) = b := by
        apply UInt8.toNat_inj.mp
        rw [UInt8.toNat_ofNat']
        omega
      rw [List.length_cons, toNatLE, ofNatLE, hdiv, hmod, ih]

/-- The octets of a big-endian number are those it was read from. -/
@[simp] theorem ofNatBE_toNatBE (bs : Bytes) : ofNatBE bs.length (toNatBE bs) = bs := by
  rw [ofNatBE, toNatBE_eq, ← List.length_reverse, ofNatLE_toNatLE, List.reverse_reverse]

/-- **Octets that form a big-endian number** are the bits of that number. -/
theorem bitsOf_toNatBE (bs : Bytes) : bitsOf (8 * bs.length) (toNatBE bs) = bits bs := by
  rw [← bits_ofNatBE, ofNatBE_toNatBE]

/-- **Writing `width` octets and reading them back** keeps the number modulo `256 ^ width`. -/
@[simp] theorem toNatBE_ofNatBE (width n : Nat) : toNatBE (ofNatBE width n) = n % 256 ^ width := by
  rw [toNatBE_eq, ofNatBE, List.reverse_reverse, toNatLE_ofNatLE]

end Bytes

end ColumnFile
