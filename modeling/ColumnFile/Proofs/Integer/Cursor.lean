import ColumnFile.Proofs.Fault
import ColumnFile.Proofs.Integer.Packing

/-! # How far a cursor goes

Reading packed numbers from bytes of any origin. Where the bytes reach, the numbers are the ones
whose bits lie there and the cursor stops behind the last byte that holds one of them; where they do
not, reading fails for that reason alone.

* **`Packing.Held`** — the numbers whose bits a byte string begins with.
* **`BitCursor.readBits_of_lt`** — a number that is spread over several bytes, one byte at a time.
* **`BitCursor.read_enough`**, **`BitCursor.read_short`** — a cursor at the start of a byte.
* **`Packing.read_enough`**, **`Packing.read_short`** — a run at the head of a byte string. -/

namespace ColumnFile

/-! ## (1) The numbers at the head of a byte string -/

namespace Packing

/-- The width at which numbers of a nominal width are packed; numbers of width zero take no bits. -/
def rung (width : Nat) : Nat := if width = 0 then 0 else Width.aligned width

/-- A rung is at most a word. -/
theorem rung_le (width : Nat) : rung width ≤ 64 := by
  unfold rung
  split
  · exact Nat.zero_le 64
  · exact (Width.bounds_aligned width).2

/-- The octets of packed numbers are those that their bits take up. -/
theorem size_eq (count width : Nat) : size count width = (count * rung width + 7) / 8 := by
  unfold size rung
  split
  · rw [Nat.mul_zero]
  · rfl

/-- **The numbers that a byte string begins with**: `count` of a nominal width. -/
structure Held (count width : Nat) (bs : Bytes) (values : List Nat) : Prop where
  /-- There are as many as asked for. -/
  length : values.length = count
  /-- Each of them fits the width at which it is packed. -/
  fits : ∀ v ∈ values, v < 2 ^ rung width
  /-- Their bits are the first ones. -/
  bits : ∃ unread, bs.bits = values.flatMap (bitsOf (rung width)) ++ unread

variable {count width : Nat} {bs : Bytes} {values others : List Nat}

/-- **There is one list of numbers** that a byte string begins with. -/
theorem Held.unique (h : Held count width bs values) (h' : Held count width bs others) :
    values = others := by
  obtain ⟨unread, hbits⟩ := h.bits
  obtain ⟨unread', hbits'⟩ := h'.bits
  have hlength : values.length = others.length := by rw [h.length, h'.length]
  rw [hbits] at hbits'
  obtain ⟨hvalues, -⟩ := List.append_inj hbits'
    (by rw [length_flatMap_bitsOf, length_flatMap_bitsOf, hlength])
  exact flatMap_bitsOf_inj hlength h.fits h'.fits hvalues

/-- What follows a byte string does not change the numbers that it begins with. -/
theorem Held.append (h : Held count width bs values) (more : Bytes) :
    Held count width (bs ++ more) values := by
  obtain ⟨unread, hbits⟩ := h.bits
  refine ⟨h.length, h.fits, unread ++ more.bits, ?_⟩
  rw [Bytes.bits_append, hbits, List.append_assoc]

end Packing

/-! ## (2) A cursor -/

namespace BitCursor

variable {c c' : BitCursor} {count width want acc n : Nat} {values : List Nat}

/-- The bits ahead are those of the octets ahead. -/
theorem length_ahead (c : BitCursor) : c.ahead.length = 8 * (c.src.size - c.pos) := by
  rw [ahead, Bytes.length_bits, List.length_drop, Array.length_toList]

/-- The bits that a cursor has are those that are left of an octet and those ahead. -/
theorem length_bits (c : BitCursor) : c.bits.length = c.bitsLeft + 8 * (c.src.size - c.pos) := by
  rw [bits, List.length_append, length_bitsOf, length_ahead]

/-- There is no octet behind the last. -/
theorem nextByte_short (h : c.src.size ≤ c.pos) : c.nextByte = .error .packedTruncated := by
  rw [nextByte, Array.getElem?_eq_none h]

/-- **Whole bytes that are not there** cannot be read. -/
theorem readWhole_short (h : c.ahead.length < want) :
    c.readWhole want acc = .error .packedTruncated := by
  induction want using Nat.strongRecOn generalizing c acc with
  | ind want ih =>
      by_cases hend : c.src.size ≤ c.pos
      · rw [readWhole, nextByte_short hend]
      · have hahead : 0 < c.ahead.length := by
          rw [length_ahead]
          omega
        obtain ⟨c₁, hnext, hbits, -⟩ := nextByte_spec hahead
        rw [hbits, List.length_append, length_bitsOf] at h
        rw [readWhole, hnext]
        dsimp only
        rw [if_neg (by omega)]
        exact ih (want - 8) (by omega) (by omega)

/-- **Bits that are not there** cannot be read. -/
theorem readBits_short (h : c.bits.length < want) : c.readBits want = .error .packedTruncated := by
  rw [bits, List.length_append, length_bitsOf] at h
  unfold readBits
  dsimp only
  rw [if_neg (by omega)]
  apply readWhole_short
  show c.ahead.length < want - c.bitsLeft
  omega

/-- Numbers for which there are too few bits are not read. -/
theorem readEach_short (h : c.bits.length < count * width) (hpos : c.pos ≤ c.src.size) :
    readEach width count c = .error .packedTruncated := by
  induction count generalizing c with
  | zero => omega
  | succ count ih =>
      rw [readEach]
      by_cases hone : width ≤ c.bits.length
      · obtain ⟨n, c₁, hn, -, hbits, hpos₁⟩ := readBits_spec c width hone hpos
        rw [hbits, List.length_append, length_bitsOf, Nat.succ_mul] at h
        rw [hn, ok_bind]
        dsimp only
        rw [ih (by omega) hpos₁]
        rfl
      · rw [readBits_short (Nat.not_le.mp hone)]
        rfl

/-- **Numbers that are not there** cannot be read. -/
theorem read_lacking (hpos : c.pos ≤ c.src.size) (h : c.bits.length < count * Packing.rung width) :
    c.read count width = .error .packedTruncated := by
  have hw : width ≠ 0 := by
    rintro rfl
    rw [Packing.rung, if_pos rfl] at h
    omega
  rw [Packing.rung, if_neg hw] at h
  unfold read
  rw [if_neg hw]
  dsimp only
  split
  · rename_i hwhole
    obtain ⟨size, hsize⟩ : ∃ size, Width.aligned width = 8 * size :=
      ⟨Width.aligned width / 8, by omega⟩
    have hdiv : Width.aligned width / 8 = size := by omega
    rw [length_bits, hwhole.2, hsize, Nat.mul_left_comm] at h
    rw [hdiv, if_pos (by omega)]
  · exact readEach_short h hpos

/-- Numbers for which there are too few octets are not read. -/
theorem read_short (hleft : c.bitsLeft = 0) (hpos : c.pos ≤ c.src.size)
    (h : c.src.size - c.pos < Packing.size count width) :
    c.read count width = .error .packedTruncated := by
  apply read_lacking hpos
  rw [Packing.size_eq] at h
  rw [length_bits]
  omega

/-- Whole bytes go behind whatever bits were read before. -/
theorem readWhole_acc (c : BitCursor) (want acc : Nat) :
    c.readWhole want acc = (c.readWhole want 0).map fun p => (acc <<< want + p.1, p.2) := by
  induction want using Nat.strongRecOn generalizing c acc with
  | ind want ih =>
      rw [readWhole, readWhole]
      cases c.nextByte with
      | error e => rfl
      | ok c₁ =>
          dsimp only
          by_cases hw : want ≤ 8
          · rw [if_pos hw, if_pos hw, Nat.zero_shiftLeft, Nat.zero_add]
            rfl
          · have hshift : acc <<< want = (acc <<< 8) <<< (want - 8) := by
              rw [← Nat.shiftLeft_add]
              congr 1
              omega
            rw [if_neg hw, if_neg hw, ih (want - 8) (by omega),
              ih (want - 8) (by omega) c₁ (0 <<< 8 + _), Nat.zero_shiftLeft, Nat.zero_add, hshift]
            cases c₁.readWhole (want - 8) 0 with
            | error e => rfl
            | ok p =>
                simp only [Except.map, Nat.shiftLeft_eq, Nat.add_mul, Nat.add_assoc]

/-- Reading whole bytes does not look at what is left of the last one. -/
theorem readWhole_bitsLeft (c : BitCursor) (left want acc : Nat) :
    ({ c with bitsLeft := left } : BitCursor).readWhole want acc = c.readWhole want acc := by
  rw [readWhole, readWhole]
  rfl

/-- **A number that reaches past the last touched byte** is what is left of that byte, and behind it
a number that is read from the next byte on. -/
theorem readBits_of_lt (h : c.bitsLeft < want) :
    c.readBits want = (c.nextByte >>= fun c₁ => (c₁.readBits (want - c.bitsLeft)).map fun p =>
      ((c.current.toNat % 2 ^ c.bitsLeft) <<< (want - c.bitsLeft) + p.1, p.2)) := by
  have hunread : c.current.toNat % 1 <<< c.bitsLeft = c.current.toNat % 2 ^ c.bitsLeft := by
    rw [Nat.one_shiftLeft]
  -- what is unread of the current byte are the high bits of the number
  rw [readBits, hunread, if_neg (Nat.not_le.mpr h), readWhole_bitsLeft]
  generalize hmore : want - c.bitsLeft = more
  rw [readWhole]
  cases hnext : c.nextByte with
  | error e => rfl
  | ok c₁ =>
      have hleft : c₁.bitsLeft = 8 := by
        unfold nextByte at hnext
        split at hnext <;> cases hnext
        rfl
      have hbyte : c₁.current.toNat % 1 <<< 8 = c₁.current.toNat :=
        Nat.mod_eq_of_lt c₁.current.toNat_lt
      rw [ok_bind, readBits, hleft, hbyte]
      dsimp only
      -- the rest is in the next byte, or goes on behind it
      by_cases hm : more ≤ 8
      · rw [if_pos hm, if_pos hm]
        rfl
      · rw [if_neg hm, if_neg hm, readWhole_bitsLeft c₁ 0, readWhole_acc c₁ (more - 8) (_ + _),
          readWhole_acc c₁ (more - 8) c₁.current.toNat]
        have hshift : ∀ a : Nat, a <<< more = (a <<< 8) <<< (more - 8) := by
          intro a
          rw [← Nat.shiftLeft_add]
          congr 1
          omega
        rw [hshift]
        cases c₁.readWhole (more - 8) 0 with
        | error e => rfl
        | ok p => simp only [Except.map, Nat.shiftLeft_eq, Nat.add_mul, Nat.add_assoc]

/-- Reading bits leaves less than a byte of them over. -/
theorem bitsLeft_readWhole (hwant : 0 < want) (h : c.readWhole want acc = .ok (n, c')) :
    c'.bitsLeft < 8 := by
  fun_induction readWhole c want acc with
  | case1 => cases h
  | case2 c want acc c₁ hnext hw =>
      cases h
      show 8 - want < 8
      omega
  | case3 c want acc c₁ hnext hw ih => exact ih (by omega) h

/-- Less than an octet is left behind a number. -/
theorem bitsLeft_readBits (hleft : c.bitsLeft < 8) (h : c.readBits want = .ok (n, c')) :
    c'.bitsLeft < 8 := by
  unfold readBits at h
  dsimp only at h
  split at h
  · cases h
    show c.bitsLeft - want < 8
    omega
  · exact bitsLeft_readWhole (by omega) h

/-- Less than an octet is left behind several numbers. -/
theorem bitsLeft_readEach (hleft : c.bitsLeft < 8) (h : readEach width count c = .ok (values, c')) :
    c'.bitsLeft < 8 := by
  induction count generalizing c values with
  | zero =>
      cases h
      exact hleft
  | succ count ih =>
      rw [readEach] at h
      obtain ⟨⟨v, c₁⟩, hbits, h⟩ := bind_eq_ok h
      obtain ⟨⟨vs, c₂⟩, heach, h⟩ := bind_eq_ok h
      cases h
      exact ih (bitsLeft_readBits hleft hbits) heach

/-- Less than an octet is left behind whatever is read. -/
theorem bitsLeft_read (hleft : c.bitsLeft < 8) (h : c.read count width = .ok (values, c')) :
    c'.bitsLeft < 8 := by
  unfold read at h
  dsimp only at h
  split at h
  · cases h
    exact hleft
  · split at h
    · split at h
      · cases h
      · cases h
        exact hleft
    · exact bitsLeft_readEach hleft h

/-- **Numbers that are there** are read, and the cursor stops behind the last byte that holds one of
them. -/
theorem read_enough (hleft : c.bitsLeft = 0) (hpos : c.pos ≤ c.src.size)
    (h : Packing.size count width ≤ c.src.size - c.pos) :
    ∃ values c', c.read count width = .ok (values, c') ∧
      c'.pos = c.pos + Packing.size count width ∧
      Packing.Held count width (c.src.toList.drop c.pos) values := by
  have hbits : c.bits = Bytes.bits (c.src.toList.drop c.pos) := by
    rw [bits, hleft, bitsOf_zero, List.nil_append, ahead]
  by_cases hw : width = 0
  · -- numbers of width zero are zeros, and no bit is read for them
    subst hw
    refine ⟨List.replicate count 0, c, ?_, rfl, List.length_replicate, ?_, ?_⟩
    · rw [read, if_pos rfl]
    · intro v hv
      rw [(List.mem_replicate.mp hv).2]
      exact Nat.two_pow_pos _
    · refine ⟨Bytes.bits (c.src.toList.drop c.pos), ?_⟩
      have hnone : (List.replicate count 0).flatMap (bitsOf (Packing.rung 0)) = [] := by
        rw [List.flatMap_eq_nil_iff]
        intro v hv
        rfl
      rw [hnone, List.nil_append]
  · have hrung : Packing.rung width = Width.aligned width := if_neg hw
    rw [Packing.size_eq, hrung] at h
    have hlen : count * Width.aligned width ≤ c.bits.length := by
      rw [length_bits]
      omega
    obtain ⟨values, c', hread, hcount, hall, htaken, hpos'⟩ := read_spec c count hw hlen hpos
    have hless := bitsLeft_read (by omega) hread
    have hsrc := src_of_read hread
    refine ⟨values, c', hread, ?_, hcount, by rwa [hrung], c'.bits, by rw [← hbits, htaken, hrung]⟩
    -- the bits that were there are those of the numbers and less than a byte besides whole bytes
    have htotal := congrArg List.length htaken
    rw [length_bits, List.length_append, length_flatMap_bitsOf, hcount, length_bits, hsrc] at htotal
    rw [hsrc] at hpos'
    rw [Packing.size_eq, hrung]
    omega

end BitCursor

/-! ## (3) A run at the head of a byte string -/

namespace Packing

variable {count width : Nat} {bs rest : Bytes} {values : List Nat}

/-- Octets that are too few are refused. -/
theorem read_short (h : bs.length < size count width) :
    read count width bs = .error .packedTruncated := by
  have hsize : (BitCursor.ofBytes (bs.take (size count width))).src.size = bs.length := by
    show (bs.take (size count width)).toArray.size = bs.length
    rw [List.size_toArray, List.length_take]
    omega
  have hread : (BitCursor.ofBytes (bs.take (size count width))).read count width =
      .error .packedTruncated := by
    apply BitCursor.read_short rfl (Nat.zero_le _)
    rw [hsize]
    exact h
  rw [read, hread]
  rfl

/-- **A run that is there** is read whole. -/
theorem read_enough (h : size count width ≤ bs.length) :
    ∃ values, read count width bs = .ok (values, bs.drop (size count width)) ∧
      Held count width bs values := by
  have hsize : (BitCursor.ofBytes (bs.take (size count width))).src.size = size count width := by
    show (bs.take (size count width)).toArray.size = size count width
    rw [List.size_toArray, List.length_take]
    omega
  have hfits : size count width ≤ (BitCursor.ofBytes (bs.take (size count width))).src.size - 0 :=
    Nat.le_of_eq hsize.symm
  obtain ⟨values, c', hread, hpos, hheld⟩ :=
    BitCursor.read_enough (c := BitCursor.ofBytes (bs.take (size count width))) rfl
      (Nat.zero_le _) hfits
  have hend : c'.pos = size count width := hpos.trans (Nat.zero_add _)
  have hall := hheld.append (bs.drop (size count width))
  rw [show (BitCursor.ofBytes (bs.take (size count width))).src.toList.drop
      (BitCursor.ofBytes (bs.take (size count width))).pos = bs.take (size count width) from rfl,
    List.take_append_drop] at hall
  refine ⟨values, ?_, hall⟩
  rw [read, hread, ok_bind]
  dsimp only
  rw [hend]
  rfl

/-- **A run that was read** was there, and what is left over lies behind it. -/
theorem of_read (h : read count width bs = .ok (values, rest)) :
    size count width ≤ bs.length ∧ rest = bs.drop (size count width) ∧
      Held count width bs values := by
  by_cases hthere : size count width ≤ bs.length
  · obtain ⟨others, hread, hheld⟩ := read_enough hthere
    rw [hread] at h
    cases h
    exact ⟨hthere, rfl, hheld⟩
  · rw [read_short (Nat.not_le.mp hthere)] at h
    cases h

end Packing

end ColumnFile
