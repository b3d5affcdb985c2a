import ColumnFile.Proofs.Bitmap.Basic

/-! # The packed form of a bitmap

Eight bits to an octet, the first bit lowest. A bitmap is laid out from its words and read back
octet by octet into words; both ways keep every bit at its place.

* **`Bytes.bitAt`** — the bits of packed octets.
* **`Bitmap.Tidy.bitAt_toBytes`** — the packed form has the bits of the bitmap.
* **`Bitmap.ofBytes?_eq`** — which bitmap packed octets read as.
* **`Bitmap.ofBytes?_toBytes`** — the packed form of a tidy bitmap reads back. -/

namespace ColumnFile

/-- **Bit `i` of packed octets**, the first bit lowest; past the end all bits are zero. -/
def Bytes.bitAt (bs : Bytes) (i : Nat) : Bool := (bs[i / 8]?.getD 0).toNat.testBit (i % 8)

namespace Bitmap

/-! ## (1) Words as octets -/

/-- The bits of an octet come before those of the octets behind it. -/
theorem bitAt_cons (octet : UInt8) (bs : Bytes) (i : Nat) :
    Bytes.bitAt (octet :: bs) i = if i < 8 then octet.toNat.testBit i else Bytes.bitAt bs
      (i - 8) := by
  by_cases hi : i < 8
  · have hdiv : i / 8 = 0 := by omega
    have hmod : i % 8 = i := by omega
    rw [if_pos hi, Bytes.bitAt, hdiv, hmod, List.getElem?_cons_zero, Option.getD_some]
  · have hdiv : i / 8 = (i - 8) / 8 + 1 := by omega
    have hmod : i % 8 = (i - 8) % 8 := by omega
    rw [if_neg hi, Bytes.bitAt, hdiv, hmod, List.getElem?_cons_succ, Bytes.bitAt]

/-- An octet has eight bits. -/
theorem testBit_octet (octet : UInt8) {i : Nat} (hi : 8 ≤ i) : octet.toNat.testBit i = false := by
  refine Nat.testBit_lt_two_pow (Nat.lt_of_lt_of_le (UInt8.toNat_lt octet) ?_)
  exact Nat.pow_le_pow_right (by decide) hi

/-- The bits of some octets come before those of the octets behind them. -/
theorem bitAt_append (front rest : Bytes) (i : Nat) :
    Bytes.bitAt (front ++ rest) i =
      if i < 8 * front.length then Bytes.bitAt front i else Bytes.bitAt rest
        (i - 8 * front.length) := by
  have hsub : (i - 8 * front.length) / 8 = i / 8 - front.length := by omega
  have hmod : 8 * front.length ≤ i → (i - 8 * front.length) % 8 = i % 8 := by omega
  rw [Bytes.bitAt, List.getElem?_append]
  by_cases hi : i < 8 * front.length
  · rw [if_pos hi, if_pos (by omega), Bytes.bitAt]
  · rw [if_neg hi, if_neg (by omega), Bytes.bitAt, hsub, hmod (Nat.not_lt.mp hi)]

/-- The bits of a front are those of all, as far as it goes. -/
theorem bitAt_take (bs : Bytes) (n i : Nat) :
    Bytes.bitAt (bs.take n) i = (decide (i < 8 * n) && Bytes.bitAt bs i) := by
  rw [Bytes.bitAt, List.getElem?_take]
  by_cases hi : i < 8 * n
  · rw [if_pos (by omega), decide_eq_true hi, Bool.true_and, Bytes.bitAt]
  · rw [if_neg (by omega), decide_eq_false hi, Bool.false_and]
    exact Nat.zero_testBit _

/-- **A number laid out from its low octets on** has its bits in order. -/
theorem bitAt_ofNatLE (width n i : Nat) :
    Bytes.bitAt (Bytes.ofNatLE width n) i = (decide (i < 8 * width) && n.testBit i) := by
  induction width generalizing n i with
  | zero => rw [decide_eq_false (by omega), Bool.false_and]; exact Nat.zero_testBit _
  | succ width ih =>
      rw [Bytes.ofNatLE, bitAt_cons]
      by_cases hi : i < 8
      · have hoctet : (UInt8.ofNat n).toNat = n % 2 ^ 8 := rfl
        rw [if_pos hi, decide_eq_true (by omega), Bool.true_and, hoctet, Nat.testBit_mod_two_pow,
          decide_eq_true hi, Bool.true_and]
      · have hshift : (n / 256).testBit (i - 8) = n.testBit i := by
          have hpow : (256 : Nat) = 2 ^ 8 := rfl
          rw [hpow, Nat.testBit_div_two_pow, Nat.sub_add_cancel (Nat.not_lt.mp hi)]
        rw [if_neg hi, ih, hshift]
        congr 1
        exact decide_eq_decide.mpr (by omega)

/-- **Words laid out one after the other** have their bits in order. -/
theorem bitAt_words (words : List Word) (i : Nat) :
    Bytes.bitAt (words.flatMap fun w => Bytes.ofNatLE 8 w.toNat) i =
      (words[i / 64]?.getD 0#64).getLsbD (i % 64) := by
  induction words generalizing i with
  | nil => exact (Nat.zero_testBit _).trans BitVec.getLsbD_zero.symm
  | cons w words ih =>
      rw [List.flatMap_cons, bitAt_append, Bytes.length_ofNatLE]
      by_cases hi : i < 64
      · have hdiv : i / 64 = 0 := by omega
        have hmod : i % 64 = i := by omega
        rw [if_pos hi, bitAt_ofNatLE, decide_eq_true hi, Bool.true_and, hdiv, hmod,
          List.getElem?_cons_zero, Option.getD_some]
        rfl
      · have hdiv : i / 64 = (i - 64) / 64 + 1 := by omega
        have hmod : i % 64 = (i - 64) % 64 := by omega
        rw [if_neg hi, ih, hdiv, hmod, List.getElem?_cons_succ]

/-- Words are laid out in eight octets each. -/
theorem length_words (words : List Word) :
    (words.flatMap fun w => Bytes.ofNatLE 8 w.toNat).length = 8 * words.length := by
  induction words with
  | nil => rfl
  | cons w words ih =>
      rw [List.flatMap_cons, List.length_append, ih, Bytes.length_ofNatLE, List.length_cons]
      omega

/-- **The packed form** has as many octets as the bits take. -/
theorem Tidy.length_toBytes {b : Bitmap} (h : b.Tidy) : b.toBytes.length = bytesFor b.len := by
  rw [toBytes, List.length_take, length_words, Array.length_toList, h.size_words, bytesFor,
    wordsFor]
  omega

/-- **The packed form** has the bits in order, and zeros up to the end of the last octet. -/
theorem Tidy.bitAt_toBytes {b : Bitmap} (h : b.Tidy) (i : Nat) :
    Bytes.bitAt b.toBytes i = b.bit i := by
  have hword : (b.words.toList[i / 64]?.getD 0#64).getLsbD (i % 64) = b.bit i := by
    rw [Array.getElem?_toList]
    rfl
  rw [toBytes, bitAt_take, bitAt_words, hword]
  by_cases hi : i < 8 * bytesFor b.len
  · rw [decide_eq_true hi, Bool.true_and]
  · have hpast : b.len ≤ i := by
      rw [bytesFor] at hi
      omega
    rw [decide_eq_false hi, Bool.false_and, h.clean i hpast]

/-! ## (2) Octets as words -/

/-- Words that octets are laid in are as many as before. -/
theorem size_layBytes (words : Array Word) (i : Nat) (bs : Bytes) :
    (layBytes words i bs).size = words.size := by
  induction bs generalizing words i with
  | nil => rfl
  | cons octet bs ih => rw [layBytes, ih, Array.size_modify]

/-- An octet laid into its word adds its bits. -/
theorem bit_layByte {words : Array Word} {i : Nat} (octet : UInt8) (len j : Nat)
    (hk : i / 8 < words.size) :
    Bitmap.bit (Bitmap.mk (words.modify (i / 8)
        (· ||| BitVec.ofNat 64 octet.toNat <<< (8 * (i % 8)))) len) j =
      (({ words, len } : Bitmap).bit j ||
        (decide (8 * i ≤ j) && decide (j < 8 * i + 8) && octet.toNat.testBit (j - 8 * i))) := by
  rw [bit_modify { words, len } hk]
  by_cases hword : j / 64 = i / 8
  · have hshift : (BitVec.ofNat 64 octet.toNat <<< (8 * (i % 8))).getLsbD (j % 64) =
        (decide (8 * i ≤ j) && decide (j < 8 * i + 8) && octet.toNat.testBit (j - 8 * i)) := by
      rw [BitVec.getLsbD_shiftLeft, BitVec.getLsbD_ofNat,
        decide_eq_true (Nat.mod_lt j (by decide : 0 < 64)), Bool.true_and]
      by_cases hlow : 8 * i ≤ j
      · have hoff : j % 64 - 8 * (i % 8) = j - 8 * i := by omega
        rw [decide_eq_true hlow, decide_eq_false (by omega : ¬ j % 64 < 8 * (i % 8)), hoff,
          decide_eq_true (by omega : j - 8 * i < 64)]
        by_cases hhigh : j < 8 * i + 8
        · rw [decide_eq_true hhigh]
          rfl
        · rw [decide_eq_false hhigh, testBit_octet octet (by omega)]
          rfl
      · rw [decide_eq_false hlow, decide_eq_true (by omega : j % 64 < 8 * (i % 8))]
        rfl
    rw [if_pos hword, BitVec.getLsbD_or, hshift, bit, hword]
  · have hout : (decide (8 * i ≤ j) && decide (j < 8 * i + 8)) = false := by
      rw [Bool.and_eq_false_iff, decide_eq_false_iff_not, decide_eq_false_iff_not]
      omega
    rw [if_neg hword, hout, Bool.false_and, Bool.or_false]

/-- **Octets laid into words** add their bits from the place of the first of them on. -/
theorem bit_layBytes {words : Array Word} {i : Nat} (bs : Bytes) (len j : Nat)
    (h : i + bs.length ≤ 8 * words.size) :
    ({ words := layBytes words i bs, len } : Bitmap).bit j =
      (({ words, len } : Bitmap).bit j || (decide (8 * i ≤ j) && Bytes.bitAt bs (j - 8 * i))) := by
  -- octet after octet; each is laid into the eight bits that its place names
  induction bs generalizing words i with
  | nil =>
      have hnone : Bytes.bitAt [] (j - 8 * i) = false := Nat.zero_testBit _
      rw [hnone, Bool.and_false, Bool.or_false, layBytes]
  | cons octet bs ih =>
      have hk : i / 8 < words.size := by
        rw [List.length_cons] at h
        omega
      have hmore : i + 1 + bs.length ≤ 8 * (words.modify (i / 8)
          (· ||| BitVec.ofNat 64 octet.toNat <<< (8 * (i % 8)))).size := by
        rw [Array.size_modify]
        rw [List.length_cons] at h
        omega
      rw [layBytes, ih hmore, bit_layByte octet len j hk, Bool.or_assoc, bitAt_cons]
      congr 1
      -- the bit lies before the octet, in it, or behind it
      by_cases hlow : 8 * i ≤ j
      · by_cases hhigh : j < 8 * i + 8
        · rw [decide_eq_true hlow, decide_eq_true hhigh,
            decide_eq_false (by omega : ¬ 8 * (i + 1) ≤ j), if_pos (by omega), Bool.false_and,
            Bool.or_false, Bool.true_and]
        · have hoff : j - 8 * (i + 1) = j - 8 * i - 8 := by omega
          rw [decide_eq_true hlow, decide_eq_false hhigh,
            decide_eq_true (by omega : 8 * (i + 1) ≤ j), if_neg (by omega), hoff]
          rfl
      · rw [decide_eq_false hlow, decide_eq_false (by omega : ¬ 8 * (i + 1) ≤ j)]
        rfl

/-- Octets laid into as many words as `len` bits take. -/
def laidWords (bs : Bytes) (len : Nat) : Array Word :=
  layBytes (Array.replicate (wordsFor len) 0#64) 0 (bs.take (bytesFor len))

/-- As many words are laid out as the bits need. -/
theorem size_laidWords (bs : Bytes) (len : Nat) : (laidWords bs len).size = wordsFor len := by
  rw [laidWords, size_layBytes, Array.size_replicate]

/-- Whole octets are laid into words. -/
theorem bit_laidWords (bs : Bytes) (len i : Nat) :
    ({ words := laidWords bs len, len } : Bitmap).bit i =
      (decide (i < 8 * bytesFor len) && bs.bitAt i) := by
  have hzero : ({ words := Array.replicate (wordsFor len) 0#64, len } : Bitmap).bit i = false := by
    show ((Array.replicate (wordsFor len) 0#64)[i / 64]?.getD 0#64).getLsbD (i % 64) = false
    rw [Array.getElem?_replicate]
    split <;> exact BitVec.getLsbD_zero
  have hroom : 0 + (bs.take (bytesFor len)).length ≤
    8 * (Array.replicate (wordsFor len) 0#64).size := by
    rw [List.length_take, Array.size_replicate, bytesFor, wordsFor]
    omega
  rw [laidWords, bit_layBytes _ len i hroom, hzero, Bool.false_or, Nat.mul_zero,
    decide_eq_true (Nat.zero_le i), Bool.true_and, Nat.sub_zero, bitAt_take]

/-- Words without the bits past the end. -/
def cutWords (words : Array Word) (len : Nat) : Array Word :=
  if len % 64 = 0 then words else words.modify (wordsFor len - 1) (· &&& Word.upTo (len - 1))

/-- As many words are cut as there were. -/
theorem size_cutWords (words : Array Word) (len : Nat) :
    (cutWords words len).size = words.size := by
  unfold cutWords
  split
  · rfl
  · exact Array.size_modify

/-- **Bits past the end** are taken off the last word; those of whole octets may have been there. -/
theorem bit_cutWords {words : Array Word} {len : Nat} {bits : Nat → Bool}
    (hsize : words.size = wordsFor len)
    (hbits : ∀ i, ({ words, len } : Bitmap).bit i = (decide (i < 8 * bytesFor len) && bits i))
    (i : Nat) :
    ({ words := cutWords words len, len } : Bitmap).bit i = (decide (i < len) && bits i) := by
  unfold cutWords
  -- the last word is whole, or is cut behind the last bit
  by_cases hwhole : len % 64 = 0
  · have hbytes : 8 * bytesFor len = len := by
      rw [bytesFor]
      omega
    rw [if_pos hwhole, hbits, hbytes]
  · have hlast : wordsFor len - 1 < words.size := by
      rw [hsize, wordsFor]
      omega
    have hk : wordsFor len - 1 = len / 64 := by
      rw [wordsFor]
      omega
    rw [if_neg hwhole, bit_modify { words, len } hlast, hk]
    -- only the last word changes, and of it only the bits past the end
    by_cases hword : i / 64 = len / 64
    · have hbit : (({ words, len } : Bitmap).word (len / 64)).getLsbD (i % 64) =
          (decide (i < 8 * bytesFor len) && bits i) := by
        rw [← hbits i, bit, hword]
      rw [if_pos hword, BitVec.getLsbD_and, hbit, Word.getLsbD_upTo]
      by_cases hi : i < len
      · have hbytes : i < 8 * bytesFor len := by
          rw [bytesFor]
          omega
        rw [decide_eq_true hi, decide_eq_true hbytes,
          decide_eq_true (by omega : i % 64 ≤ (len - 1) % 64), Bool.and_true]
      · rw [decide_eq_false hi, decide_eq_false (by omega : ¬ i % 64 ≤ (len - 1) % 64),
          Bool.and_false, Bool.false_and]
    · rw [if_neg hword, hbits]
      congr 1
      refine decide_eq_decide.mpr ?_
      rw [bytesFor]
      omega

/-- **Packed octets read back** as the list of their first bits, unless there are too few. -/
theorem ofBytes?_eq (bs : Bytes) (len : Nat) :
    ofBytes? bs len = if bs.length < bytesFor len then none
      else some (ofList ((List.range len).map bs.bitAt)) := by
  rw [ofBytes?]
  by_cases hshort : bs.length < bytesFor len
  · rw [if_pos hshort, if_pos hshort]
  · rw [if_neg hshort, if_neg hshort]
    -- the octets laid into words, and with what lies past the end taken off
    have hbits := bit_cutWords (size_laidWords bs len) (bit_laidWords bs len)
    have htidy : ({ words := cutWords (laidWords bs len) len, len } : Bitmap).Tidy := by
      refine ⟨(size_cutWords _ len).trans (size_laidWords bs len), fun i hi => ?_⟩
      rw [hbits, decide_eq_false (Nat.not_lt.mpr hi), Bool.false_and]
    refine congrArg some (htidy.eq_ofList ?_ fun i hi => ?_)
    · rw [List.length_map, List.length_range]
    · rw [List.length_map, List.length_range] at hi
      rw [hbits, decide_eq_true hi, Bool.true_and, List.getElem?_map, List.getElem?_range hi]
      rfl

/-- **The packed form of a tidy bitmap** reads back. -/
theorem ofBytes?_toBytes {b : Bitmap} (h : b.Tidy) : ofBytes? b.toBytes b.len = some b := by
  have hbits : ofList ((List.range b.len).map b.toBytes.bitAt) = b := by
    refine (h.eq_ofList (by rw [List.length_map, List.length_range]) fun i hi => ?_).symm
    rw [List.length_map, List.length_range] at hi
    rw [List.getElem?_map, List.getElem?_range hi, Option.map_some, Option.getD_some,
      h.bitAt_toBytes]
  rw [ofBytes?_eq, if_neg (by rw [h.length_toBytes]; omega), hbits]

end Bitmap

end ColumnFile
