import ColumnFile.Proofs.Machine
import ColumnFile.RunLength.Machine
import ColumnFile.Proofs.Integer.Cursor
import ColumnFile.Proofs.Integer.Varint

/-! # A machine within its range

Where no operand is out of range, a machine computes what the plain readers compute. A reader of a
machine follows a plain one when it gives the same result at a place where the plain one gives the
bytes from there on, and stops for the same fault.

* **`Machine.Follows`** — a reader of a machine against a plain one; `bind`, `bind_map` and `lift`
  follow a chain of steps.
* **`Machine.follows_unpack`** — packed runs.
* **`Machine.follows_readVarint`**, **`Machine.zigzag_eq`** — integers of variable length. -/

namespace ColumnFile

namespace Machine

variable {a b n k : Nat}

/-! ## (1) Digits -/

/-- Digits behind a number: a sum, as the places do not meet. -/
theorem shiftLeft_or (h : b < 2 ^ n) (a : Nat) : a <<< n ||| b = a <<< n + b :=
  (Nat.shiftLeft_add_eq_or_of_lt h a).symm

/-! ## (2) Following a reader -/

/-- **A reader of a machine follows a plain one.** -/
inductive Follows {α : Type} (src : Bytes) : Except Stop (α × Nat) → Except Fault (α × Bytes) → Prop
  /-- Both give a result, one with a place and the other with the bytes from there on. -/
  | ok (a : α) (pos : Nat) (h : pos ≤ src.length) :
  Follows src (.ok (a, pos)) (.ok (a, src.drop pos))
  /-- Both stop, for the same fault. -/
  | fault (e : Fault) : Follows src (.error (.fault e)) (.error e)

namespace Follows

variable {α β γ : Type} {src : Bytes}

/-- What the plain reader gives where the machine gives a result. -/
theorem of_ok {a : α} {pos : Nat} {y : Except Fault (α × Bytes)}
    (h : Follows src (.ok (a, pos)) y) :
    y = .ok (a, src.drop pos) ∧ pos ≤ src.length := by
  cases h with
  | ok _ _ hpos => exact ⟨rfl, hpos⟩

/-- What the plain reader gives where the machine stops for a fault. -/
theorem of_fault {e : Fault} {y : Except Fault (α × Bytes)}
    (h : Follows src (.error (.fault e)) y) :
    y = .error e := by
  cases h
  rfl

/-- **A chain is followed** step by step; the plain step may give another view of the same
result. -/
theorem bind_map (view : γ → α) {x : Except Stop (α × Nat)} {y : Except Fault (γ × Bytes)}
    {f : α × Nat → Except Stop (β × Nat)} {g : γ × Bytes → Except Fault (β × Bytes)}
    (h : Follows src x (y.map fun p => (view p.1, p.2)))
    (hnext : ∀ a pos, pos ≤ src.length → y = .ok (a, src.drop pos) →
      Follows src (f (view a, pos)) (g (a, src.drop pos))) : Follows src (x >>= f) (y >>= g) := by
  cases y with
  | error e =>
      cases h
      exact .fault e
  | ok p =>
      obtain ⟨a, rest⟩ := p
      rw [Except.map] at h
      generalize hrest : rest = rest' at h
      generalize hview : view a = a' at h
      cases h with
      | ok _ pos hpos =>
          subst hrest hview
          exact hnext a pos hpos rfl

/-- What follows a step that is as on numbers is as on numbers, if its steps are. -/
theorem bind {x : Except Stop (α × Nat)} {y : Except Fault (α × Bytes)}
    {f : α × Nat → Except Stop (β × Nat)} {g : α × Bytes → Except Fault (β × Bytes)}
    (h : Follows src x y)
    (hnext : ∀ a pos, pos ≤ src.length → y = .ok (a, src.drop pos) →
      Follows src (f (a, pos)) (g (a, src.drop pos))) : Follows src (x >>= f) (y >>= g) := by
  refine bind_map id ?_ hnext
  have hsame : y.map (fun p => (id p.1, p.2)) = y := by cases y <;> rfl
  rw [hsame]
  exact h

/-- **A step that reads nothing** is followed when it computes the same. -/
theorem lift {y : Except Fault α} {x : Except Stop α} {f : α → Except Stop (β × Nat)}
    {g : α → Except Fault (β × Bytes)} (h : x = y.mapError .fault)
    (hnext : ∀ a, y = .ok a → Follows src (f a) (g a)) : Follows src (x >>= f) (y >>= g) := by
  cases y with
  | error e =>
      rw [h]
      exact .fault e
  | ok a =>
      rw [h]
      exact hnext a rfl

end Follows

/-! ## (3) Packed runs -/

variable {src : Bytes} {c : BitCursor}

/-- The next octet is taken as on numbers. -/
theorem nextByte_eq (h : c.src.size < 2 ^ 63) : nextByte c = c.nextByte.mapError .fault := by
  unfold nextByte BitCursor.nextByte
  by_cases hpos : c.pos < c.src.size
  · rw [Array.getElem?_eq_getElem hpos]
    dsimp only
    rw [add_eq (by omega)]
    rfl
  · rw [Array.getElem?_eq_none (Nat.not_lt.mp hpos)]
    rfl

/-- A number within the last touched byte, behind `k` bits. -/
theorem readBits_of_le {turns want acc : Nat} (hleft : c.bitsLeft ≤ 8) (hacc : acc < 2 ^ k)
    (hk : k + want ≤ 64) (h : want ≤ c.bitsLeft) :
    readBits (turns + 1) c want acc =
      ((c.readBits want).mapError .fault).map fun p => (acc <<< want + p.1, p.2) := by
  have hplain : c.readBits want = .ok ((c.current.toNat % 2 ^ c.bitsLeft) >>> (c.bitsLeft - want),
      { c with bitsLeft := c.bitsLeft - want }) := by
    rw [BitCursor.readBits, Nat.one_shiftLeft, if_pos h]
  -- the bits of the number are the highest ones of what is left
  have hhigh : (c.current.toNat % 2 ^ c.bitsLeft) >>> (c.bitsLeft - want) =
      c.current.toNat >>> (c.bitsLeft - want) % 2 ^ want := by
    have hsplit : 2 ^ c.bitsLeft = 2 ^ want * 2 ^ (c.bitsLeft - want) := by
      rw [← Nat.pow_add, Nat.add_sub_cancel' h]
    rw [Nat.shiftRight_eq_div_pow, Nat.shiftRight_eq_div_pow, hsplit, Nat.mod_mul_left_div_self]
  rw [hplain, readBits, if_neg (Nat.not_lt.mpr h), hhigh]
  by_cases hwant : want = 0
  · subst hwant
    rw [if_pos rfl, Nat.pow_zero, Nat.mod_one]
    rfl
  · rw [if_neg hwant, sub_eq h, ok_bind, shiftLeft_eq hacc hk (by omega), ok_bind,
      lowMask_eq (by omega), ok_bind, shiftRight_eq (by omega), ok_bind,
      Nat.and_two_pow_sub_one_eq_mod, shiftLeft_or (Nat.mod_lt _ (Nat.two_pow_pos want))]
    rfl

/-- **A number behind `k` bits** is read as a number of its own; one turn goes to what is left of
the last byte, and one to each byte after it. -/
theorem readBits_eq {turns want acc : Nat} (hsrc : c.src.size < 2 ^ 63) (hleft : c.bitsLeft ≤ 8)
    (hacc : acc < 2 ^ k) (hk : k + want ≤ 64) (hturns : want ≤ c.bitsLeft + 8 * turns) :
    readBits (turns + 1) c want acc =
      ((c.readBits want).mapError .fault).map fun p => (acc <<< want + p.1, p.2) := by
  induction turns generalizing c want acc k with
  | zero => exact readBits_of_le hleft hacc hk (by omega)
  | succ turns ih =>
      -- all bits that are unread are taken, and reading goes on in the next byte
      by_cases h : c.bitsLeft < want
      · generalize hmore : want - c.bitsLeft = more
        have hunread : c.current.toNat % 2 ^ c.bitsLeft < 2 ^ c.bitsLeft :=
          Nat.mod_lt _ (Nat.two_pow_pos c.bitsLeft)
        have hacc' : acc <<< c.bitsLeft + c.current.toNat % 2 ^ c.bitsLeft < 2 ^ (k + c.bitsLeft) :=
          shiftLeft_add_lt hacc hunread
        rw [readBits, if_pos h, shiftLeft_eq hacc (by omega) (by omega), ok_bind,
          lowMask_eq (by omega), ok_bind, sub_eq (Nat.le_of_lt h), ok_bind, hmore,
          Nat.and_two_pow_sub_one_eq_mod, shiftLeft_or hunread, nextByte_eq hsrc,
          BitCursor.readBits_of_lt h, hmore]
        cases hnext : c.nextByte with
        | error e => rfl
        | ok c₁ =>
            have hbyte : c₁.bitsLeft = 8 ∧ c₁.src = c.src := by
              refine ⟨?_, BitCursor.src_of_nextByte hnext⟩
              unfold BitCursor.nextByte at hnext
              split at hnext <;> cases hnext
              rfl
            have hshift : acc <<< want = (acc <<< c.bitsLeft) <<< more := by
              rw [← Nat.shiftLeft_add, ← hmore, Nat.add_sub_cancel' (Nat.le_of_lt h)]
            show readBits (turns + 1) c₁ more _ = _
            rw [ih (by rwa [hbyte.2]) (by omega) hacc' (by omega) (by omega), ok_bind, hshift]
            cases c₁.readBits more with
            | error e => rfl
            | ok p =>
                simp only [Except.map, Except.mapError, Nat.shiftLeft_eq, Nat.add_mul,
                  Nat.add_assoc]
      · exact readBits_of_le hleft hacc hk (Nat.not_lt.mp h)

/-- Several numbers are read as on numbers. -/
theorem readEach_eq {width count : Nat} (hsrc : c.src.size < 2 ^ 63) (hleft : c.bitsLeft < 8)
    (hwidth : width ≤ 64) : readEach width count c = (c.readEach width count).mapError .fault := by
  induction count generalizing c with
  | zero => rfl
  | succ count ih =>
      have hnumber : readBits (9 + 1) c width 0 =
          ((c.readBits width).mapError .fault).map fun p => (0 <<< width + p.1, p.2) :=
        readBits_eq (k := 0) hsrc (Nat.le_of_lt hleft) (by decide) (by omega) (by omega)
      rw [readEach, BitCursor.readEach, turnsPerNumber, hnumber]
      cases hbits : c.readBits width with
      | error e => rfl
      | ok p =>
          have hrest := ih (c := p.2) (by rwa [BitCursor.src_of_readBits hbits])
            (BitCursor.bitsLeft_readBits hleft hbits)
          simp only [Except.map, Except.mapError, ok_bind, Nat.zero_shiftLeft, Nat.zero_add, hrest]
          cases p.2.readEach width count <;> rfl

/-- **Octets behind `k` bits** make a big-endian number. -/
theorem octets_eq {bs : Bytes} {acc : Nat} (hacc : acc < 2 ^ k) (hk : k + 8 * bs.length ≤ 64) :
    octets bs acc = .ok (bs.foldl (fun acc b => acc * 256 + b.toNat) acc) := by
  induction bs generalizing acc k with
  | nil => rfl
  | cons b rest ih =>
      have hb : b.toNat < 2 ^ 8 := b.toNat_lt
      rw [List.length_cons] at hk
      rw [octets, shiftLeft_eq hacc (by omega) (by decide), ok_bind, shiftLeft_or hb,
        ih (shiftLeft_add_lt hacc hb) (by omega), List.foldl_cons, Nat.shiftLeft_eq]

/-- Whole octets are read as on numbers. -/
theorem wholeNumbers_eq {size : Nat} (hsize : size ≤ 8) (count : Nat) (bs : Bytes) :
    wholeNumbers size count bs = .ok (BitCursor.wholeNumbers size count bs) := by
  induction count generalizing bs with
  | zero => rfl
  | succ count ih =>
      have hlength : (bs.take size).length ≤ size := List.length_take_le size bs
      have hfirst : octets (bs.take size) 0 = .ok (Bytes.toNatBE (bs.take size)) :=
        octets_eq (k := 0) (by decide) (by omega)
      rw [wholeNumbers, hfirst, ok_bind, ih, ok_bind]
      rfl

/-- **Unpacking** at a place is what a cursor at that place does. -/
theorem unpack_eq {count width pos : Nat} (hsrc : src.length < 2 ^ 63) (hpos : pos ≤ src.length)
    (hcount : count ≤ 512) :
    unpack src count width pos =
      ((({ src := src.toArray, pos } : BitCursor).read count width).mapError .fault).map
        fun p => (p.1, p.2.pos) := by
  unfold unpack BitCursor.read
  dsimp only
  -- numbers of no bits, of whole bytes, and of bits
  by_cases hw : width = 0
  · rw [if_pos hw, if_pos hw]
    rfl
  · have hwidth := (Width.bounds_aligned width).2
    rw [if_neg hw, if_neg hw]
    by_cases hwhole : Width.aligned width % 8 = 0
    · have hsize : Width.aligned width / 8 ≤ 8 := by omega
      generalize Width.aligned width / 8 = size at hsize
      have hneed : count * size ≤ 512 * 8 := Nat.mul_le_mul hcount hsize
      rw [if_pos hwhole, if_pos ⟨hwhole, rfl⟩, mul_eq (by omega), ok_bind,
        add_eq (by omega), ok_bind, List.size_toArray]
      by_cases hshort : src.length < pos + count * size
      · rw [if_pos hshort, if_pos hshort]
        rfl
      · have hchunk : ((src.toArray.extract pos (pos + count * size)).toList : Bytes) =
            (src.drop pos).take (pos + count * size - pos) := by
          rw [Array.toList_extract, List.toList_toArray, List.extract_eq_take_drop]
        have hslice : slice src pos (pos + count * size) =
            .ok ((src.drop pos).take (pos + count * size - pos)) :=
          if_pos ⟨Nat.le_add_right _ _, Nat.not_lt.mp hshort⟩
        rw [if_neg hshort, if_neg hshort, hslice, ok_bind, wholeNumbers_eq hsize, hchunk]
        rfl
    · rw [if_neg hwhole, if_neg (fun h => hwhole h.1),
        readEach_eq (by rwa [List.size_toArray]) (Nat.zero_lt_succ 7) hwidth]
      cases BitCursor.readEach (Width.aligned width) count { src := src.toArray, pos } <;> rfl

/-- **A packed run** of no more numbers than a run has values. -/
theorem follows_unpack {count pos : Nat} (hsrc : src.length < 2 ^ 63) (hpos : pos ≤ src.length)
    (hcount : count ≤ 512) (width : Nat) :
    Follows src (unpack src count width pos) (Packing.read count width (src.drop pos)) := by
  have hsize : ({ src := src.toArray, pos } : BitCursor).src.size = src.length := List.size_toArray
  rw [unpack_eq hsrc hpos hcount]
  by_cases hthere : Packing.size count width ≤ src.length - pos
  · have hcursor : Packing.size count width ≤ ({ src := src.toArray, pos } : BitCursor).src.size -
      pos := by
      rwa [hsize]
    have hbytes : Packing.size count width ≤ (src.drop pos).length := by rwa [List.length_drop]
    obtain ⟨values, c, hread, hend, hheld⟩ :=
      BitCursor.read_enough (c := { src := src.toArray, pos }) rfl (by rwa [hsize]) hcursor
    obtain ⟨others, hplain, hheld'⟩ := Packing.read_enough hbytes
    have hsame : values = others := hheld.unique hheld'
    rw [hread, hplain, List.drop_drop, ← hsame]
    dsimp only at hend
    simp only [Except.mapError, Except.map, hend]
    exact .ok values (pos + Packing.size count width) (by omega)
  · rw [BitCursor.read_short rfl (by rwa [hsize]) (by rw [hsize]; exact Nat.not_le.mp hthere),
      Packing.read_short (by rw [List.length_drop]; exact Nat.not_le.mp hthere)]
    exact .fault _

/-! ## (4) Integers of variable length -/

/-- Digits in front of a number, as far as the word reaches. -/
theorem or_shiftLeft {shift acc : Nat} (hacc : acc < 2 ^ shift) (hshift : shift < 64) (d : Nat) :
    acc ||| d <<< shift % 2 ^ 64 = (acc + d * 2 ^ shift) % 2 ^ 64 := by
  have hword : acc % 2 ^ 64 = acc :=
    Nat.mod_eq_of_lt
      (Nat.lt_of_lt_of_le hacc (Nat.pow_le_pow_right (by decide) (Nat.le_of_lt hshift)))
  calc acc ||| d <<< shift % 2 ^ 64 = acc % 2 ^ 64 ||| d <<< shift % 2 ^ 64 := by rw [hword]
    _ = (d <<< shift ||| acc) % 2 ^ 64 := by rw [← Nat.or_mod_two_pow, Nat.or_comm]
    _ = (acc + d * 2 ^ shift) % 2 ^ 64 := by rw [shiftLeft_or hacc, Nat.shiftLeft_eq, Nat.add_comm]

/-- The groups of a varint behind the `shift` bits that were read before; `limit` groups may
follow. -/
theorem follows_readDigits {limit shift acc pos : Nat} (hsrc : src.length < 2 ^ 63)
    (hpos : pos ≤ src.length) (hshift : shift + 7 * limit = 70) (hacc : acc < 2 ^ shift) :
    Follows src (readVarint src (limit + 1) shift acc pos)
      ((Varint.readDigits limit (src.drop pos)).map fun p =>
        ((acc + p.1 * 2 ^ shift) % 2 ^ 64, p.2)) := by
  induction limit generalizing shift acc pos with
  | zero =>
      rw [readVarint]
      by_cases hin : pos < src.length
      · rw [List.getElem?_eq_getElem hin, List.drop_eq_getElem_cons hin]
        dsimp only
        rw [add_eq (by omega), ok_bind, if_pos (by omega)]
        exact .fault _
      · rw [List.getElem?_eq_none (Nat.not_lt.mp hin), List.drop_eq_nil_of_le (Nat.not_lt.mp hin)]
        exact .fault _
  | succ limit ih =>
      rw [readVarint]
      by_cases hin : pos < src.length
      · rw [List.getElem?_eq_getElem hin, List.drop_eq_getElem_cons hin]
        generalize src[pos] = b
        dsimp only
        have hgroup : shiftLeft (b.toNat % 128) shift = .ok ((b.toNat % 128) <<< shift % 2 ^ 64) :=
          if_pos (by omega)
        rw [add_eq (by omega), ok_bind, if_neg (by omega), hgroup, ok_bind,
          or_shiftLeft hacc (by omega), Varint.readDigits]
        by_cases hlast : b < 128
        · have hb : b.toNat % 128 = b.toNat := Nat.mod_eq_of_lt (UInt8.lt_iff_toNat_lt.mp hlast)
          rw [if_pos hlast, if_pos hlast, hb]
          exact .ok _ (pos + 1) hin
        · have hd : b.toNat % 128 < 128 := Nat.mod_lt _ (by decide)
          generalize b.toNat % 128 = d at hd
          have hpow : 2 ^ (shift + 7) = 2 ^ shift * 128 := Nat.pow_add 2 shift 7
          have hmore : (acc + d * 2 ^ shift) % 2 ^ 64 < 2 ^ (shift + 7) := by
            refine Nat.lt_of_le_of_lt (Nat.mod_le _ _) ?_
            calc acc + d * 2 ^ shift < 2 ^ shift + d * 2 ^ shift := Nat.add_lt_add_right hacc _
              _ = (d + 1) * 2 ^ shift := by rw [Nat.succ_mul, Nat.add_comm]
              _ ≤ 128 * 2 ^ shift := Nat.mul_le_mul_right _ hd
              _ = 2 ^ (shift + 7) := by rw [hpow, Nat.mul_comm]
          have hnext : pos + 1 ≤ src.length := hin
          have hleft : shift + 7 + 7 * limit = 70 := by omega
          have hrest := ih hnext hleft hmore
          rw [if_neg hlast, if_neg hlast, add_eq (by omega), ok_bind]
          generalize Varint.readDigits limit (src.drop (pos + 1)) = digits at hrest ⊢
          cases digits with
          | error e => exact hrest
          | ok p =>
              -- the groups that follow count from seven bits further on
              have hvalue : acc + (d + 128 * p.1) * 2 ^ shift =
                  acc + d * 2 ^ shift + p.1 * 2 ^ (shift + 7) := by
                rw [hpow, Nat.add_mul, Nat.add_assoc, Nat.mul_comm 128, Nat.mul_assoc,
                  Nat.mul_comm 128]
              simp only [ok_bind, Except.map, pure, Except.pure, Nat.mod_add_mod, hvalue] at hrest ⊢
              exact hrest
      · rw [List.getElem?_eq_none (Nat.not_lt.mp hin), List.drop_eq_nil_of_le (Nat.not_lt.mp hin)]
        exact .fault _

/-- **A varint** is read as a word. -/
theorem follows_readVarint {pos : Nat} (hsrc : src.length < 2 ^ 63) (hpos : pos ≤ src.length) :
    Follows src (readVarint src turnsPerVarint 0 0 pos)
      ((Varint.read (src.drop pos)).map fun p => (p.1.toNat, p.2)) := by
  have h : Follows src (readVarint src (Varint.maxLength + 1) 0 0 pos) _ :=
    follows_readDigits hsrc hpos rfl (by decide)
  have hsame : ((Varint.read (src.drop pos)).map fun p => (p.1.toNat, p.2)) =
      (Varint.readDigits Varint.maxLength (src.drop pos)).map fun p =>
        ((0 + p.1 * 2 ^ 0) % 2 ^ 64, p.2) := by
    rw [Varint.read]
    cases Varint.readDigits Varint.maxLength (src.drop pos) with
    | error e => rfl
    | ok p =>
        simp only [ok_bind, Except.map, pure, Except.pure, UInt64.toNat_ofNat', Nat.pow_zero,
          Nat.mul_one, Nat.zero_add]
  rw [hsame]
  exact h

/-- **A zigzag number** of a word is taken apart without leaving the range of integers. -/
theorem zigzag_eq (h : n < 2 ^ 64) : zigzag n = .ok (Zigzag.decode (UInt64.ofNat n)) := by
  have hword : (UInt64.ofNat n).toNat = n := UInt64.toNat_ofNat_of_lt' h
  have hhalf : n >>> 1 = n / 2 := Nat.shiftRight_one n
  rw [zigzag, shiftRight_eq (by decide), ok_bind, hhalf, Zigzag.decode, hword, Zigzag.atPosition]
  rcases Nat.mod_two_eq_zero_or_one n with heven | hodd
  · have hsign : negate (Int64.ofNat 0) = .ok 0 := rfl
    rw [heven, hsign, ok_bind, Int64.xor_zero, if_pos rfl]
    rfl
  · have hsign : negate (Int64.ofNat 1) = .ok (-1) := rfl
    have hbelow : Int.negSucc (n / 2) = -((n / 2 : Nat) : Int) - 1 := by omega
    rw [hodd, hsign, ok_bind, Int64.xor_neg_one, Int64.not_eq_neg_sub, if_neg (by decide), hbelow,
      Int64.ofInt_sub, Int64.ofInt_neg, Int64.ofInt_eq_ofNat]
    rfl

/-- A literal is told from a number as on numbers. -/
theorem ofNumber_eq (h : n < 2 ^ 64) (signed : Bool) :
    ofNumber signed n = .ok (Run.ofNumber signed n) := by
  cases signed with
  | true => exact zigzag_eq h
  | false => rfl

end Machine

end ColumnFile
