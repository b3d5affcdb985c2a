import ColumnFile.Integer.Packing
import ColumnFile.Proofs.Integer.Bits
import ColumnFile.Proofs.Integer.Width

/-! # Packed runs read back

A packed run is the concatenation of the bits of its numbers, filled up to a whole byte, and a
cursor takes bits off the front of what is left of its byte string. From these two views a run that
was packed reads back, whatever follows it.

* **`Packing.bits_packAfter`** — the bits that packing writes.
* **`BitCursor.bits`** — the bits that a cursor has not read; `readBits_spec` and `read_spec` say
  what reading takes off them.
* **`Packing.read_pack`** — the round trip. -/

namespace ColumnFile

namespace Packing

/-! ## (1) What packing writes -/

/-- **The bits of packed values**: the bits held before, those of the values, and less than a byte
of filling. -/
theorem bits_packAfter (width : Nat) (acc held : Nat) (values : List Nat) (hheld : held < 8) :
    ∃ filling, filling < 8 ∧ (packAfter width acc held values).bits =
      bitsOf held acc ++ (values.flatMap (bitsOf width) ++ List.replicate filling false) := by
  induction values generalizing acc held with
  | nil =>
      rcases held with _ | held
      · exact ⟨0, by omega, rfl⟩
      · refine ⟨8 - (held + 1), by omega, ?_⟩
        have hbyte : bitsOf 8 (UInt8.ofNat (acc <<< (8 - (held + 1)))).toNat =
            bitsOf 8 (acc <<< (8 - (held + 1)) + 0 % 2 ^ (8 - (held + 1))) := by
          rw [UInt8.toNat_ofNat', Nat.zero_mod, Nat.add_zero]
          exact bitsOf_mod (Nat.le_refl 8) _
        have hsplit := bitsOf_shiftLeft_add (held + 1) (8 - (held + 1)) acc 0
        rw [show held + 1 + (8 - (held + 1)) = 8 by omega] at hsplit
        rw [packAfter, Bytes.bits_cons, Bytes.bits_nil, List.append_nil, hbyte, hsplit,
          List.flatMap_nil, List.nil_append, bitsOf_of_zero]
  | cons v rest ih =>
      rw [packAfter]
      simp only [Nat.one_shiftLeft]
      generalize hacc : acc <<< width + v % 2 ^ width = acc'
      generalize hheld' : held + width = held'
      have hmod : held' % 8 < 8 := Nat.mod_lt _ (by decide)
      obtain ⟨filling, hfill, hbits⟩ := ih (acc' % 2 ^ (held' % 8)) (held' % 8) hmod
      refine ⟨filling, hfill, ?_⟩
      have hnew : bitsOf (8 * (held' / 8)) (acc' >>> (held' % 8)) ++ bitsOf (held' % 8) acc' =
          bitsOf held acc ++ bitsOf width v := by
        rw [← bitsOf_add, Nat.div_add_mod, ← hheld', ← hacc, bitsOf_shiftLeft_add]
      rw [Bytes.bits_append, Bytes.bits_ofNatBE, hbits, bitsOf_mod (Nat.le_refl _),
        List.flatMap_cons, ← List.append_assoc, hnew, List.append_assoc, List.append_assoc]

/-- **A packed run takes as many bytes as its size says.** -/
theorem length_pack (values : List Nat) (width : Nat) :
    (pack values width).length = size values.length width := by
  unfold pack size
  by_cases hw : width = 0
  · rw [if_pos hw, if_pos hw, List.length_nil]
  · rw [if_neg hw, if_neg hw]
    obtain ⟨filling, hfill, hbits⟩ := bits_packAfter (Width.aligned width) 0 0 values (by decide)
    have hlen := congrArg List.length hbits
    rw [Bytes.length_bits, bitsOf_zero, List.nil_append, List.length_append, length_flatMap_bitsOf,
      List.length_replicate] at hlen
    omega

end Packing

namespace BitCursor

/-! ## (2) What reading takes -/

/-- The bits of the bytes that a cursor has not touched. -/
def ahead (c : BitCursor) : List Bool := Bytes.bits (c.src.toList.drop c.pos)

/-- **The bits that a cursor has not read**: the low bits of the last touched byte, then the bytes
ahead. -/
def bits (c : BitCursor) : List Bool := bitsOf c.bitsLeft c.current.toNat ++ c.ahead

@[simp] theorem bits_ofBytes (src : Bytes) : (ofBytes src).bits = src.bits := rfl

/-- **Bits taken**: a result that takes a number of `width` bits off the front of `unread`, with the
cursor still inside its byte string. -/
def Takes (width : Nat) (unread : List Bool) (result : Except Fault (Nat × BitCursor)) : Prop :=
  ∃ n c, result = .ok (n, c) ∧ n < 2 ^ width ∧ unread = bitsOf width n ++ c.bits ∧
    c.pos ≤ c.src.size

/-- Touching a byte reads none of its bits. -/
theorem nextByte_spec {c : BitCursor} (h : 0 < c.ahead.length) :
    ∃ c', c.nextByte = .ok c' ∧ c.ahead = bitsOf 8 c'.current.toNat ++ c'.ahead ∧
      c'.pos ≤ c'.src.size := by
  have hpos : c.pos < c.src.toList.length := by
    rw [ahead, Bytes.length_bits, List.length_drop] at h
    omega
  refine ⟨{ c with pos := c.pos + 1, bitsLeft := 8, current := c.src[c.pos] }, ?_, ?_, hpos⟩
  · unfold nextByte
    rw [Array.getElem?_eq_getElem hpos]
  · rw [ahead, List.drop_eq_getElem_cons hpos]
    rfl

/-- **Reading whole bytes** continues the number whose first `k` bits were read before. -/
theorem readWhole_spec {c : BitCursor} {want acc k : Nat} (hacc : acc < 2 ^ k) (hwant : 0 < want)
    (hlen : want ≤ c.ahead.length) :
    Takes (k + want) (bitsOf k acc ++ c.ahead) (readWhole c want acc) := by
  induction want using Nat.strongRecOn generalizing c acc k with
  | ind want ih =>
      obtain ⟨c₁, hnext, hahead, hpos⟩ := nextByte_spec (c := c) (by omega)
      have hbyte : c₁.current.toNat < 2 ^ 8 := c₁.current.toNat_lt
      rw [readWhole, hnext]
      dsimp only
      by_cases hw : want ≤ 8
      · -- the number ends in this byte: its high bits are taken, the low ones stay unread
        rw [if_pos hw]
        have hsplit : bitsOf 8 c₁.current.toNat =
            bitsOf want (c₁.current.toNat >>> (8 - want)) ++ bitsOf
              (8 - want) c₁.current.toNat := by
          rw [← bitsOf_add, show want + (8 - want) = 8 by omega]
        have hhigh : c₁.current.toNat >>> (8 - want) < 2 ^ want := by
          rw [Nat.shiftRight_eq_div_pow, Nat.div_lt_iff_lt_mul (Nat.two_pow_pos _), ← Nat.pow_add,
            show want + (8 - want) = 8 by omega]
          exact hbyte
        have hsum := bitsOf_shiftLeft_add k want acc (c₁.current.toNat >>> (8 - want))
        rw [Nat.mod_eq_of_lt hhigh] at hsum
        refine ⟨_, _, rfl, shiftLeft_add_lt hacc hhigh, ?_, hpos⟩
        rw [hsum, bits, hahead, hsplit, List.append_assoc, List.append_assoc]
        rfl
      · -- the whole byte goes to the number, and reading goes on behind it
        rw [if_neg hw]
        have hsum := bitsOf_shiftLeft_add k 8 acc c₁.current.toNat
        rw [Nat.mod_eq_of_lt hbyte] at hsum
        have hlen₁ : want - 8 ≤ c₁.ahead.length := by
          rw [hahead, List.length_append, length_bitsOf] at hlen
          omega
        have hrest := ih (want - 8) (by omega) (shiftLeft_add_lt hacc hbyte) (by omega) hlen₁
        rw [hsum, List.append_assoc, ← hahead, show k + 8 + (want - 8) = k + want by omega] at hrest
        exact hrest

/-- **Reading a number of `want` bits** takes its bits off the front of what is unread. -/
theorem readBits_spec (c : BitCursor) (want : Nat) (hlen : want ≤ c.bits.length)
    (hpos : c.pos ≤ c.src.size) :
    Takes want c.bits (c.readBits want) := by
  unfold readBits
  simp only [Nat.one_shiftLeft]
  by_cases hw : want ≤ c.bitsLeft
  · rw [if_pos hw]
    refine ⟨_, _, rfl, ?_, ?_, hpos⟩
    · have hmod := Nat.mod_lt c.current.toNat (Nat.two_pow_pos c.bitsLeft)
      rw [Nat.shiftRight_eq_div_pow, Nat.div_lt_iff_lt_mul (Nat.two_pow_pos _), ← Nat.pow_add,
        show want + (c.bitsLeft - want) = c.bitsLeft by omega]
      exact hmod
    · have hsplit := bitsOf_add want (c.bitsLeft - want) (c.current.toNat % 2 ^ c.bitsLeft)
      rw [show want + (c.bitsLeft - want) = c.bitsLeft by omega, bitsOf_mod (Nat.le_refl _),
        bitsOf_mod (by omega)] at hsplit
      rw [bits, hsplit, List.append_assoc]
      rfl
  · rw [if_neg hw]
    have hlen' : want - c.bitsLeft ≤ c.ahead.length := by
      rw [bits, List.length_append, length_bitsOf] at hlen
      omega
    have hrest := readWhole_spec (c := { c with bitsLeft := 0 })
      (Nat.mod_lt c.current.toNat (Nat.two_pow_pos c.bitsLeft)) (by omega) hlen'
    rw [bitsOf_mod (Nat.le_refl _), show c.bitsLeft + (want - c.bitsLeft) = want by omega] at hrest
    exact hrest

/-- **Numbers taken**: a result that takes `count` numbers of `width` bits each off the front of
`unread`, with the cursor still inside its byte string. -/
def TakesAll (count width : Nat) (unread : List Bool)
    (result : Except Fault (List Nat × BitCursor)) : Prop :=
  ∃ vs c, result = .ok (vs, c) ∧ vs.length = count ∧ (∀ v ∈ vs, v < 2 ^ width) ∧
    unread = vs.flatMap (bitsOf width) ++ c.bits ∧ c.pos ≤ c.src.size

/-- **Several numbers** are taken off the bits, one after the other. -/
theorem readEach_spec {width count : Nat} {c : BitCursor} (hlen : count * width ≤ c.bits.length)
    (hpos : c.pos ≤ c.src.size) : TakesAll count width c.bits (readEach width count c) := by
  induction count generalizing c with
  | zero => exact ⟨[], c, rfl, rfl, by simp, rfl, hpos⟩
  | succ count ih =>
      rw [Nat.succ_mul] at hlen
      obtain ⟨n, c₁, hn, hlt, hbits, hpos₁⟩ := readBits_spec c width (by omega) hpos
      have hlen₁ : count * width ≤ c₁.bits.length := by
        rw [hbits, List.length_append, length_bitsOf] at hlen
        omega
      obtain ⟨vs, c₂, hvs, hcount, hall, hbits₁, hpos₂⟩ := ih hlen₁ hpos₁
      refine ⟨n :: vs, c₂, ?_, by rw [List.length_cons, hcount], ?_, ?_, hpos₂⟩
      · rw [readEach, hn]
        dsimp only [bind, Except.bind]
        rw [hvs]
        rfl
      · intro v hv
        rcases List.mem_cons.mp hv with rfl | hv
        · exact hlt
        · exact hall v hv
      · rw [hbits, hbits₁, List.flatMap_cons, List.append_assoc]

/-- **Whole numbers** hold the bits of their bytes. -/
theorem wholeNumbers_spec (size count : Nat) (bs : Bytes) (hlen : bs.length = count * size) :
    (wholeNumbers size count bs).length = count ∧
      (∀ v ∈ wholeNumbers size count bs, v < 2 ^ (8 * size)) ∧
      bs.bits = (wholeNumbers size count bs).flatMap (bitsOf (8 * size)) := by
  induction count generalizing bs with
  | zero =>
      have hnil : bs = [] := by
        rw [Nat.zero_mul, List.length_eq_zero_iff] at hlen
        exact hlen
      rw [hnil]
      exact ⟨rfl, by simp [wholeNumbers], rfl⟩
  | succ count ih =>
      rw [Nat.succ_mul] at hlen
      have htake : (bs.take size).length = size := by
        rw [List.length_take]
        omega
      obtain ⟨hcount, hall, hbits⟩ := ih (bs.drop size) (by rw [List.length_drop]; omega)
      have hlt := Bytes.toNatBE_lt (bs.take size)
      have hhead := Bytes.bitsOf_toNatBE (bs.take size)
      rw [htake] at hlt hhead
      rw [wholeNumbers]
      refine ⟨by rw [List.length_cons, hcount], ?_, ?_⟩
      · intro v hv
        rcases List.mem_cons.mp hv with rfl | hv
        · rw [Nat.pow_mul]
          exact hlt
        · exact hall v hv
      · rw [List.flatMap_cons, hhead, ← hbits, ← Bytes.bits_append, List.take_append_drop]

/-- **Reading `count` numbers of a positive nominal width** takes them at the width that they are
packed at. -/
theorem read_spec (c : BitCursor) (count : Nat) {width : Nat} (hw : width ≠ 0)
    (hlen : count * Width.aligned width ≤ c.bits.length) (hpos : c.pos ≤ c.src.size) :
    TakesAll count (Width.aligned width) c.bits (c.read count width) := by
  unfold read
  rw [if_neg hw]
  -- whole bytes are taken as they are; otherwise numbers are read bit after bit
  by_cases hwhole : Width.aligned width % 8 = 0 ∧ c.bitsLeft = 0
  · rw [if_pos hwhole]
    have hleft := hwhole.2
    obtain ⟨size, hsize⟩ : ∃ size, Width.aligned width = 8 * size :=
      ⟨Width.aligned width / 8, by omega⟩
    have hdiv : Width.aligned width / 8 = size := by omega
    have hahead : c.bits = c.ahead := by rw [bits, hleft, bitsOf_zero, List.nil_append]
    rw [hahead, ahead, Bytes.length_bits, List.length_drop, Array.length_toList, hsize,
      Nat.mul_left_comm] at hlen
    have hfits : c.pos + count * size ≤ c.src.size := by omega
    dsimp only
    rw [hdiv, if_neg (by omega)]
    have hbytes : (c.src.extract c.pos (c.pos + count * size)).toList =
        (c.src.toList.drop c.pos).take (count * size) := by
      rw [Array.toList_extract, List.extract_eq_take_drop, Nat.add_sub_cancel_left]
    have htaken : ((c.src.toList.drop c.pos).take (count * size)).length = count * size := by
      rw [List.length_take, List.length_drop, Array.length_toList]
      omega
    obtain ⟨hcount, hall, hbits⟩ := wholeNumbers_spec size count _ htaken
    rw [hbytes, hsize]
    refine ⟨_, _, rfl, hcount, hall, ?_, hfits⟩
    have hmoved : ({ c with pos := c.pos + count * size } : BitCursor).bits =
        Bytes.bits ((c.src.toList.drop c.pos).drop (count * size)) := by
      rw [bits, hleft, bitsOf_zero, List.nil_append, ahead, List.drop_drop]
    rw [← hbits, hmoved, hahead, ahead, ← Bytes.bits_append, List.take_append_drop]
  · rw [if_neg hwhole]
    exact readEach_spec hlen hpos

end BitCursor

namespace Packing

/-! ## (3) The round trip -/

/-- **A packed run reads back**, whatever follows it, when its numbers fit the nominal width. -/
theorem read_pack (values : List Nat) {width : Nat} (rest : Bytes) (hwidth : width ≤ 64)
    (hfit : ∀ v ∈ values, v < 2 ^ width) :
    read values.length width (pack values width ++ rest) = .ok (values, rest) := by
  have hsize := length_pack values width
  have htake : (pack values width ++ rest).take (size values.length width) = pack values width := by
    rw [← hsize, List.take_left']
    rfl
  unfold read
  rw [htake]
  by_cases hw : width = 0
  · -- at width zero every number is zero and takes no bits
    subst hw
    have hzero : values = List.replicate values.length 0 := by
      rw [List.eq_replicate_iff]
      refine ⟨rfl, ?_⟩
      intro v hv
      have := hfit v hv
      omega
    rw [BitCursor.read, if_pos rfl, ← hzero, pack_width_zero]
    rfl
  · have haligned : ∀ v ∈ values, v < 2 ^ Width.aligned width := by
      intro v hv
      exact Nat.lt_of_lt_of_le (hfit v hv)
        (Nat.pow_le_pow_right (by decide) (Width.le_aligned hwidth))
    obtain ⟨filling, hfill, hbits⟩ := bits_packAfter (Width.aligned width) 0 0 values (by decide)
    have hpack : (pack values width).bits =
        values.flatMap (bitsOf (Width.aligned width)) ++ List.replicate filling false := by
      rw [pack, if_neg hw, hbits]
      rfl
    have hlen : values.length * Width.aligned width ≤ (pack values width).bits.length := by
      rw [hpack, List.length_append, length_flatMap_bitsOf]
      omega
    obtain ⟨vs, c, hread, hcount, hall, htaken, hpos⟩ :=
      BitCursor.read_spec (BitCursor.ofBytes (pack values width)) values.length hw
        hlen (Nat.zero_le _)
    rw [BitCursor.bits_ofBytes, hpack] at htaken
    obtain ⟨hvalues, hunread⟩ := List.append_inj htaken
      (by rw [length_flatMap_bitsOf, length_flatMap_bitsOf, hcount])
    have hvs : vs = values :=
      (flatMap_bitsOf_inj hcount.symm haligned hall hvalues).symm
    -- less than a byte is unread, so the cursor has reached the end of the run
    have hsrc : c.src = (pack values width).toArray := BitCursor.src_of_read hread
    have hend : c.pos = (pack values width).length := by
      have hshort := congrArg List.length hunread
      rw [List.length_replicate, BitCursor.bits, List.length_append, BitCursor.ahead,
        Bytes.length_bits, List.length_drop, hsrc, List.toList_toArray] at hshort
      rw [hsrc, List.size_toArray] at hpos
      omega
    rw [hread]
    dsimp only [bind, Except.bind, pure, Except.pure]
    rw [hend, List.drop_left', hvs]
    rfl

end Packing

end ColumnFile
