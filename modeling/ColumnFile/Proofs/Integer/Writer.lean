import ColumnFile.Integer.Writer
import ColumnFile.Proofs.Buffer
import ColumnFile.Proofs.Integer.Bits
import ColumnFile.Proofs.Integer.Packing
import Mathlib.Tactic.Ring

/-! # What a writer of bits leaves in a buffer

A writer stands for the bits of the bytes that are full and those that the last byte holds so far. A
number adds its own bits behind them, however they are spread over bytes. So a run is written as the
bytes that packing gives, whether its numbers are whole octets or not.

* **`BitWriter.bits`**, **`BitWriter.Well`** — the bits that a writer stands for, and that the free
  ones are zero.
* **`BitWriter.fill_spec`**, **`BitWriter.put_spec`** — one number, by induction on the bits that
  are left of it.
* **`Packing.write_spec`** — a run. -/

namespace ColumnFile

/-! ## (1) Words and bytes -/

namespace BitWriter

variable {v : UInt64} {n k : Nat}

/-- A word shifted to the right by less than its width. -/
theorem toNat_shiftRight (v : UInt64) (hk : k < 64) :
    (v >>> UInt64.ofNat k).toNat = v.toNat >>> k := by
  rw [UInt64.toNat_shiftRight, UInt64.toNat_ofNat', Nat.mod_eq_of_lt (show k < 2 ^ 64 by omega),
    Nat.mod_eq_of_lt hk]

/-- A word shifted to the left by less than its width, without loss. -/
theorem toNat_shiftLeft (hk : k < 64) (hv : v.toNat < 2 ^ n) (hn : n + k ≤ 64) :
    (v <<< UInt64.ofNat k).toNat = v.toNat <<< k := by
  have hlt : v.toNat <<< k < 2 ^ 64 := by
    rw [Nat.shiftLeft_eq]
    calc v.toNat * 2 ^ k < 2 ^ n * 2 ^ k := Nat.mul_lt_mul_of_pos_right hv (Nat.two_pow_pos k)
      _ = 2 ^ (n + k) := (Nat.pow_add 2 n k).symm
      _ ≤ 2 ^ 64 := Nat.pow_le_pow_right (by decide) hn
  rw [UInt64.toNat_shiftLeft, UInt64.toNat_ofNat', Nat.mod_eq_of_lt (show k < 2 ^ 64 by omega),
    Nat.mod_eq_of_lt hk, Nat.mod_eq_of_lt hlt]

/-- The lowest bits of a word are what is left of its number. -/
theorem toNat_and_lowMask (v : UInt64) (n : Nat) : (v &&& lowMask n).toNat = v.toNat % 2 ^ n := by
  have hmask : (lowMask n).toNat = 2 ^ min n 64 - 1 := by
    rw [lowMask]
    split
    · next hn => rw [Nat.min_eq_right hn]; rfl
    · next hn =>
        have hone : (1 <<< UInt64.ofNat n : UInt64).toNat = 2 ^ n := by
          have hshift := toNat_shiftLeft (v := 1) (k := n) (n := 1) (by omega) (by decide)
            (by omega)
          rw [hshift]
          exact Nat.one_shiftLeft n
        rw [UInt64.toNat_sub_of_le, hone, Nat.min_eq_left (by omega)]
        · rfl
        · rw [UInt64.le_iff_toNat_le, hone]
          exact Nat.one_le_two_pow
  rw [UInt64.toNat_and, hmask, Nat.and_two_pow_sub_one_eq_mod]
  by_cases hn : n ≤ 64
  · rw [Nat.min_eq_left hn]
  · have hlt := v.toNat_lt
    have hpow : 2 ^ 64 ≤ 2 ^ n := Nat.pow_le_pow_right (by decide) (by omega)
    rw [Nat.min_eq_right (by omega), Nat.mod_eq_of_lt hlt, Nat.mod_eq_of_lt (by omega)]

end BitWriter

/-- **Byte strings are told apart by their bits.** -/
theorem Bytes.bits_inj {as bs : Bytes} (h : as.bits = bs.bits) : as = bs := by
  have hlength : as.length = bs.length := by
    have hbits := congrArg List.length h
    rw [Bytes.length_bits, Bytes.length_bits] at hbits
    omega
  have hnumbers : as.map UInt8.toNat = bs.map UInt8.toNat := by
    have hsame : (as.map UInt8.toNat).length = (bs.map UInt8.toNat).length := by
      rw [List.length_map, List.length_map, hlength]
    refine @flatMap_bitsOf_inj 8 _ _ hsame ?_ ?_ ?_
    · intro v hv
      obtain ⟨a, -, rfl⟩ := List.mem_map.mp hv
      exact a.toNat_lt
    · intro v hv
      obtain ⟨b, -, rfl⟩ := List.mem_map.mp hv
      exact b.toNat_lt
    · rw [List.flatMap_map, List.flatMap_map]
      exact h
  exact (List.map_inj_right fun _ _ => UInt8.toNat_inj.mp).mp hnumbers

namespace BitWriter

/-! ## (2) One number -/

variable {w : BitWriter} {value : UInt64} {n width : Nat}

/-- **The bits that a writer stands for**: those of the bytes that are full, and those that the last
one holds. -/
def bits (w : BitWriter) : List Bool :=
  w.out.committed.bits ++ bitsOf (8 - w.bitsLeft) (w.current.toNat >>> w.bitsLeft)

/-- **A writer is well**: the free bits of its last byte are zero. -/
structure Well (w : BitWriter) : Prop where
  ordered : w.out.Ordered
  free : w.current.toNat % 2 ^ w.bitsLeft = 0

/-- A writer at the start of a byte stands for the bytes of its buffer. -/
theorem bits_start (out : Buffer) : bits { out } = out.committed.bits := List.append_nil _

/-- A writer at the start of a byte is well. -/
theorem well_start {out : Buffer} (h : out.Ordered) : Well { out } := ⟨h, rfl⟩

/-- **A number in the free bits** of a byte is behind those that the byte holds. -/
theorem bits_or (c high : UInt8) {left n m : Nat} (hleft : left ≤ 8) (hn : n ≤ left)
    (hfree : c.toNat % 2 ^ left = 0) (hm : m < 2 ^ n) (hhigh : high.toNat = m <<< (left - n)) :
    bitsOf (8 - (left - n)) ((c ||| high).toNat >>> (left - n)) =
        bitsOf (8 - left) (c.toNat >>> left) ++ bitsOf n m ∧
      (c ||| high).toNat % 2 ^ (left - n) = 0 := by
  have hpow : 2 ^ left = 2 ^ n * 2 ^ (left - n) := by rw [← Nat.pow_add, Nat.add_sub_cancel' hn]
  have hheld : c.toNat = 2 ^ left * (c.toNat >>> left) := by
    rw [Nat.shiftRight_eq_div_pow, Nat.mul_div_cancel' (Nat.dvd_of_mod_eq_zero hfree)]
  have hsmall : m * 2 ^ (left - n) < 2 ^ left := by
    rw [hpow]
    exact Nat.mul_lt_mul_of_pos_right hm (Nat.two_pow_pos _)
  have hsum : (c ||| high).toNat = ((c.toNat >>> left) <<< n + m) * 2 ^ (left - n) := by
    rw [UInt8.toNat_or, hhigh, Nat.shiftLeft_eq]
    calc c.toNat ||| m * 2 ^ (left - n)
      _ = 2 ^ left * (c.toNat >>> left) ||| m * 2 ^ (left - n) := by rw [← hheld]
      _ = 2 ^ left * (c.toNat >>> left) + m * 2 ^ (left - n) :=
          (Nat.two_pow_add_eq_or_of_lt hsmall _).symm
      _ = ((c.toNat >>> left) <<< n + m) * 2 ^ (left - n) := by
          rw [hpow, Nat.shiftLeft_eq]
          ring
  rw [hsum]
  refine ⟨?_, Nat.mul_mod_left _ _⟩
  rw [Nat.shiftRight_eq_div_pow, Nat.mul_div_cancel _ (Nat.two_pow_pos _),
    show 8 - (left - n) = 8 - left + n by omega]
  have hshift := bitsOf_shiftLeft_add (8 - left) n (c.toNat >>> left) m
  rwa [Nat.mod_eq_of_lt hm] at hshift

/-- **The bits of a number that fill bytes** are behind those of the writer, and what is left of the
number fits the byte that is being filled. By induction on the bits that are left. -/
theorem fill_spec (h : w.Well) (hn : n ≤ 64) (hvalue : value.toNat < 2 ^ n) :
    (w.fill value n).1.Well ∧ (w.fill value n).2.2 ≤ (w.fill value n).1.bitsLeft ∧
      (w.fill value n).2.1.toNat < 2 ^ (w.fill value n).2.2 ∧
      (w.fill value n).1.bits ++ bitsOf (w.fill value n).2.2 (w.fill value n).2.1.toNat =
        w.bits ++ bitsOf n value.toNat := by
  induction n using Nat.strongRecOn generalizing w value with
  | ind n ih =>
      rw [fill]
      by_cases hmore : w.bitsLeft < n
      · have hpos := w.bitsLeft_pos
        have hle := w.bitsLeft_le
        rw [if_pos hmore]
        dsimp only
        -- the highest bits go to the byte, which is full with them
        have hhigh : (value >>> UInt64.ofNat (n - w.bitsLeft) &&&
          lowMask w.bitsLeft).toUInt8.toNat =
            (value.toNat >>> (n - w.bitsLeft) % 2 ^ w.bitsLeft) <<< (w.bitsLeft - w.bitsLeft) := by
          rw [UInt64.toNat_toUInt8, toNat_and_lowMask, toNat_shiftRight value (by omega),
            Nat.sub_self, Nat.shiftLeft_zero]
          refine Nat.mod_eq_of_lt (Nat.lt_of_lt_of_le (Nat.mod_lt _ (Nat.two_pow_pos _)) ?_)
          exact Nat.pow_le_pow_right (by decide) hle
        obtain ⟨hbyte, -⟩ := bits_or w.current _ hle (Nat.le_refl _) h.free
          (Nat.mod_lt _ (Nat.two_pow_pos _)) hhigh
        rw [Nat.sub_self, Nat.shiftRight_zero, bitsOf_mod (Nat.le_refl _)] at hbyte
        have hlow : (value &&& lowMask (n - w.bitsLeft)).toNat =
          value.toNat % 2 ^ (n - w.bitsLeft) :=
          toNat_and_lowMask _ _
        obtain ⟨hwell, hfits, hrest, hbits⟩ := ih (n - w.bitsLeft) (by omega)
          (w := { out := w.out.push (w.current ||| _) }) (well_start (h.ordered.append _).1)
            (by omega)
          (by rw [hlow]; exact Nat.mod_lt _ (Nat.two_pow_pos _))
        refine ⟨hwell, hfits, hrest, hbits.trans ?_⟩
        have hsplit := bitsOf_add w.bitsLeft (n - w.bitsLeft) value.toNat
        rw [Nat.add_sub_cancel' (Nat.le_of_lt hmore)] at hsplit
        rw [bits_start, Buffer.push, h.ordered.committed_append, Bytes.bits_append, Bytes.bits_cons,
          Bytes.bits_nil, List.append_nil, hbyte, hlow, bitsOf_mod (Nat.le_refl _), hsplit, bits,
          List.append_assoc, List.append_assoc, List.append_assoc]
      · rw [if_neg hmore]
        exact ⟨h, Nat.not_lt.mp hmore, hvalue, rfl⟩

/-- **A number is put** behind the bits of a writer, however it is spread over bytes. -/
theorem put_spec (h : w.Well) (hwidth : width ≤ 64) (v : UInt64) :
    (w.put width v).Well ∧ (w.put width v).bits = w.bits ++ bitsOf width v.toNat := by
  have hvalue : (v &&& lowMask width).toNat < 2 ^ width := by
    rw [toNat_and_lowMask]
    exact Nat.mod_lt _ (Nat.two_pow_pos _)
  obtain ⟨hwell, hfits, hrest, hbits⟩ := fill_spec h hwidth hvalue
  rw [toNat_and_lowMask, bitsOf_mod (Nat.le_refl _)] at hbits
  rw [← hbits, put]
  generalize w.fill (v &&& lowMask width) width = filled at hwell hfits hrest
  obtain ⟨w', value, n⟩ := filled
  dsimp only at hwell hfits hrest ⊢
  have hle := w'.bitsLeft_le
  have hpos := w'.bitsLeft_pos
  have hlow : (value <<< UInt64.ofNat (w'.bitsLeft - n)).toUInt8.toNat =
      value.toNat <<< (w'.bitsLeft - n) := by
    rw [UInt64.toNat_toUInt8, toNat_shiftLeft (by omega) hrest (by omega), Nat.shiftLeft_eq]
    refine Nat.mod_eq_of_lt ?_
    calc value.toNat * 2 ^ (w'.bitsLeft - n) < 2 ^ n * 2 ^ (w'.bitsLeft - n) :=
          Nat.mul_lt_mul_of_pos_right hrest (Nat.two_pow_pos _)
      _ = 2 ^ w'.bitsLeft := by rw [← Nat.pow_add, Nat.add_sub_cancel' hfits]
      _ ≤ 2 ^ 8 := Nat.pow_le_pow_right (by decide) hle
  obtain ⟨hbyte, hfree⟩ := bits_or w'.current _ hle hfits hwell.free hrest hlow
  split
  · next hfull =>
      rw [hfull, Nat.sub_zero, Nat.shiftRight_zero] at hbyte
      refine ⟨well_start (hwell.ordered.append _).1, ?_⟩
      rw [bits_start, Buffer.push, hwell.ordered.committed_append, Bytes.bits_append,
        Bytes.bits_cons, Bytes.bits_nil, List.append_nil, hfull, hbyte, bits, List.append_assoc]
  · exact ⟨⟨hwell.ordered, hfree⟩, by rw [bits, hbyte, bits, List.append_assoc]⟩

/-- **Numbers are put** one behind the other. -/
theorem foldl_put_spec (h : w.Well) (hwidth : width ≤ 64) (values : List Int64) :
    (values.foldl (fun (w : BitWriter) v => w.put width v.toUInt64) w).Well ∧
      (values.foldl (fun (w : BitWriter) v => w.put width v.toUInt64) w).bits =
        w.bits ++ (values.map fun v => v.toUInt64.toNat).flatMap (bitsOf width) := by
  induction values generalizing w with
  | nil => exact ⟨h, (List.append_nil _).symm⟩
  | cons v values ih =>
      obtain ⟨hwell, hbits⟩ := put_spec h hwidth v.toUInt64
      obtain ⟨hall, hrest⟩ := ih hwell
      refine ⟨hall, hrest.trans ?_⟩
      rw [hbits, List.map_cons, List.flatMap_cons, List.append_assoc]

/-- **The last byte is pushed** with zeros in its free bits. -/
theorem finish_spec (h : w.Well) :
    w.finish.Ordered ∧ ∃ filling < 8, w.finish.committed.bits =
      w.bits ++ List.replicate filling false := by
  have hle := w.bitsLeft_le
  have hpos := w.bitsLeft_pos
  rw [finish]
  by_cases hstart : w.bitsLeft = 8
  · refine ⟨by rw [if_neg (not_not_intro hstart)]; exact h.ordered, 0, by decide, ?_⟩
    rw [if_neg (not_not_intro hstart), bits, hstart]
    simp
  · have hheld := bitsOf_add (8 - w.bitsLeft) w.bitsLeft w.current.toNat
    rw [Nat.sub_add_cancel hle, ← bitsOf_mod (Nat.le_refl w.bitsLeft) w.current.toNat, h.free,
      bitsOf_of_zero] at hheld
    refine ⟨by rw [if_pos hstart]; exact (h.ordered.append _).1, w.bitsLeft, by omega, ?_⟩
    rw [if_pos hstart, Buffer.push, h.ordered.committed_append, Bytes.bits_append, Bytes.bits_cons,
      Bytes.bits_nil, List.append_nil, hheld, bits, List.append_assoc]

end BitWriter

/-! ## (3) A run -/

/-- The last octets of a big-endian number. -/
theorem Bytes.drop_ofNatBE (front k n : Nat) :
    (ofNatBE (front + k) n).drop front = ofNatBE k n := by
  induction k generalizing n with
  | zero => exact List.drop_of_length_le (Nat.le_of_eq (length_ofNatBE _ _))
  | succ k ih =>
      rw [← Nat.add_assoc, ofNatBE_succ, List.drop_append_of_le_length, ih, ← ofNatBE_succ]
      rw [length_ofNatBE]
      exact Nat.le_add_right _ _

namespace Packing

variable {out : Buffer} {width : Nat}

/-- **Whole octets** of numbers are appended one behind the other. -/
theorem foldl_append_spec (h : out.Ordered) (size : Nat) (hsize : size ≤ 8) (values : List Int64) :
    (values.foldl (fun out v => out.append ((Bytes.ofNatBE 8 v.toUInt64.toNat).drop (8 - size)))
      out).Ordered ∧
      (values.foldl (fun out v =>
          out.append ((Bytes.ofNatBE 8 v.toUInt64.toNat).drop (8 - size))) out).committed.bits =
        out.committed.bits ++ (values.map fun v => v.toUInt64.toNat).flatMap
          (bitsOf (8 * size)) := by
  induction values generalizing out with
  | nil => exact ⟨h, (List.append_nil _).symm⟩
  | cons v values ih =>
      have hoctets : (Bytes.ofNatBE 8 v.toUInt64.toNat).drop (8 - size) =
          Bytes.ofNatBE size v.toUInt64.toNat := by
        have hdrop := Bytes.drop_ofNatBE (8 - size) size v.toUInt64.toNat
        rwa [Nat.sub_add_cancel hsize] at hdrop
      obtain ⟨hordered, hbits⟩ :=
        ih (h.append ((Bytes.ofNatBE 8 v.toUInt64.toNat).drop (8 - size))).1
      refine ⟨hordered, hbits.trans ?_⟩
      rw [h.committed_append, Bytes.bits_append, hoctets, Bytes.bits_ofNatBE, List.map_cons,
        List.flatMap_cons, List.append_assoc]

/-- **A run is written** as the bytes that packing gives, behind what is committed. Numbers of whole
octets and numbers that lie across bytes leave the same bits, and fewer than eight zeros fill the
last byte either way. -/
theorem write_spec (h : out.Ordered) (values : List Int64) (width : Nat) :
    (write out values width).Ordered ∧
      (write out values width).committed =
        out.committed ++ pack (values.map fun v => v.toUInt64.toNat) width := by
  rw [write]
  by_cases hnone : width = 0 ∨ values = []
  · rw [if_pos hnone]
    refine ⟨h, ?_⟩
    rcases hnone with rfl | rfl
    · rw [pack_width_zero, List.append_nil]
    · rw [List.map_nil, pack_nil, List.append_nil]
  · rw [if_neg hnone]
    have hw : width ≠ 0 := fun hzero => hnone (.inl hzero)
    dsimp only
    generalize hreserved : out.reserve ((values.length * Width.aligned width + 7) / 8) = room
    obtain ⟨hused, htreated, hcommitted, hcapacity⟩ :=
      h.reserve ((values.length * Width.aligned width + 7) / 8)
    rw [hreserved] at hused htreated hcommitted hcapacity
    have hroom : room.Ordered := ⟨by rw [hused, htreated]; exact h.1, by omega⟩
    obtain ⟨-, hmost⟩ := Width.bounds_aligned width
    -- both ways leave the bits of the numbers and less than a byte of zeros
    have hwritten : ∀ b :
      Buffer, (b.Ordered ∧ ∃ filling < 8, b.committed.bits = out.committed.bits ++
        ((values.map fun v => v.toUInt64.toNat).flatMap (bitsOf (Width.aligned width)) ++
          List.replicate filling false)) →
        b.Ordered ∧ b.committed = out.committed ++ pack (values.map fun v => v.toUInt64.toNat)
        width := by
      rintro b ⟨hordered, filling, hfilling, hbits⟩
      refine ⟨hordered, Bytes.bits_inj ?_⟩
      obtain ⟨filling', hfilling', hpack⟩ :=
        bits_packAfter (Width.aligned width) 0 0 (values.map fun v => v.toUInt64.toNat) (by decide)
      rw [bitsOf_zero, List.nil_append] at hpack
      have hlength := congrArg List.length hbits
      have hlength' := congrArg List.length hpack
      simp only [Bytes.length_bits, List.length_append, List.length_replicate] at hlength hlength'
      obtain rfl : filling = filling' := by omega
      rw [pack, if_neg hw, Bytes.bits_append, hpack, hbits]
    apply hwritten
    by_cases hwhole : Width.aligned width % 8 = 0
    · rw [if_pos hwhole]
      obtain ⟨hordered, hbits⟩ :=
        foldl_append_spec hroom (Width.aligned width / 8) (by omega) values
      refine ⟨hordered, 0, by decide, ?_⟩
      rw [hbits, hcommitted, Nat.mul_div_cancel' (Nat.dvd_of_mod_eq_zero hwhole),
        List.replicate_zero, List.append_nil]
    · rw [if_neg hwhole]
      obtain ⟨hwell, hbits⟩ := BitWriter.foldl_put_spec (BitWriter.well_start hroom) hmost values
      obtain ⟨hordered, filling, hfilling, hfinish⟩ := BitWriter.finish_spec hwell
      refine ⟨hordered, filling, hfilling, ?_⟩
      rw [hfinish, hbits, BitWriter.bits_start, hcommitted, List.append_assoc]

end Packing

end ColumnFile
