import ColumnFile.RunLength.Decoder
import ColumnFile.Proofs.Integer.Cursor
import ColumnFile.Proofs.RunLength.Run

/-! # What a run that was read amounts to

A run is read from bytes of any origin. Whatever their headers claim, a run that is read gives at
least one value and at most 512, takes at least two bytes, and gives at most 128 values for each
byte.

* **`Run.Measured`** — these bounds, as one predicate.
* **`Run.measured_read`** — every run that is read keeps them; one lemma for each type of run makes
  it up.
* **`Run.readAll_of_read`** — a stream is read run by run.
* **`Run.length_readAll`** — the values of a whole stream against its bytes. -/

namespace ColumnFile

namespace Run

variable {signed : Bool} {first : UInt8} {bs rest : Bytes} {values : List Int64}

/-- **What a run amounts to**: its values against the bytes that it takes off the front of a
stream. -/
structure Measured (bs rest : Bytes) (values : List Int64) : Prop where
  /-- There is a value. -/
  nonempty : 1 ≤ values.length
  /-- There are no more than a run can count. -/
  most : values.length ≤ maxLength
  /-- Two bytes are taken. -/
  takes : rest.length + 2 ≤ bs.length
  /-- Each byte pays for 128 values. -/
  dense : values.length + 128 * rest.length ≤ 128 * bs.length

/-- **Four bytes pay for the longest run.** -/
theorem Measured.of_four (hnonempty : 1 ≤ values.length) (hmost : values.length ≤ maxLength)
    (htakes : rest.length + 4 ≤ bs.length) : Measured bs rest values := by
  have h512 : values.length ≤ 512 := hmost
  exact ⟨hnonempty, hmost, by omega, by omega⟩

/-! ## (1) Parts of a run -/

/-- An octet that is read is the first one. -/
theorem of_readByte {b : UInt8} (h : readByte bs = .ok (b, rest)) : bs = b :: rest := by
  cases bs with
  | nil => cases h
  | cons c tail =>
      cases h
      rfl

/-- A number that is read takes up its octets. -/
theorem length_readBE {size n : Nat} (h : readBE size bs = .ok (n, rest)) :
    rest.length + size = bs.length := by
  unfold readBE Bytes.take? at h
  dsimp only at h
  by_cases hfront : (bs.take size).length = size
  · rw [if_pos hfront] at h
    cases h
    rw [List.length_take] at hfront
    rw [List.length_drop]
    omega
  · rw [if_neg hfront] at h
    cases h

/-- **A count** has nine bits, and one is added to it. -/
theorem of_readCount {count : Nat} (h : readCount first bs = .ok (count, rest)) :
    1 ≤ count ∧ count ≤ maxLength ∧ rest.length + 1 = bs.length := by
  unfold readCount at h
  obtain ⟨⟨low, tail⟩, hbyte, h⟩ := bind_eq_ok h
  cases h
  have hlow : low.toNat < 256 := low.toNat_lt
  have hmax : maxLength = 512 := rfl
  rw [of_readByte hbyte, List.length_cons, hmax]
  omega

/-! ## (2) One type of run after another -/

/-- A short repeat takes up octets, and has values. -/
theorem measured_readShortRepeat (h : readShortRepeat signed first bs = .ok (values, rest)) :
    Measured (first :: bs) rest values := by
  unfold readShortRepeat at h
  obtain ⟨⟨n, tail⟩, hvalue, h⟩ := bind_eq_ok h
  cases h
  have htaken := length_readBE hvalue
  have hmin : minRepeat = 3 := rfl
  have hmax : maxLength = 512 := rfl
  constructor <;> simp only [List.length_replicate, List.length_cons, hmin, hmax] <;> omega

/-- A direct run spends at least a bit on each of its values. -/
theorem measured_readDirect (h : readDirect signed first bs = .ok (values, rest)) :
    Measured (first :: bs) rest values := by
  unfold readDirect at h
  obtain ⟨⟨count, tail⟩, hcount, h⟩ := bind_eq_ok h
  obtain ⟨⟨numbers, tail'⟩, hnumbers, h⟩ := bind_eq_ok h
  cases h
  obtain ⟨hnonempty, hmost, htail⟩ := of_readCount hcount
  obtain ⟨hthere, rfl, hheld⟩ := Packing.of_read hnumbers
  have hwidth : Width.ofCode (widthCode first) ≠ 0 := by
    have hmem : Width.ofCode (widthCode first) ∈ Width.fixedLadder := Width.ofCode_mem _
    exact Nat.ne_of_gt (Width.bounds_of_mem_fixedLadder hmem).1
  have hbit : count ≤ 8 * Packing.size count (Width.ofCode (widthCode first)) := by
    have hpos := (Width.bounds_aligned (Width.ofCode (widthCode first))).1
    have hmul := Nat.le_mul_of_pos_right count hpos
    rw [Packing.size, if_neg hwidth]
    omega
  have hlength : (numbers.map (ofNumber signed)).length = count := by
    rw [List.length_map, hheld.length]
  have hsize : 1 ≤ Packing.size count (Width.ofCode (widthCode first)) := by omega
  constructor
  · rwa [hlength]
  · rwa [hlength]
  · rw [List.length_drop, List.length_cons]
    omega
  · rw [hlength, List.length_drop, List.length_cons]
    omega

/-- A patched base run has a head of four bytes. -/
theorem measured_readPatchedBase (h : readPatchedBase first bs = .ok (values, rest)) :
    Measured (first :: bs) rest values := by
  unfold readPatchedBase at h
  -- the parts of the run, in the order in which they are read
  obtain ⟨⟨count, rest₁⟩, hcount, h⟩ := bind_eq_ok h
  obtain ⟨⟨third, rest₂⟩, hthird, h⟩ := bind_eq_ok h
  obtain ⟨⟨fourth, rest₃⟩, hfourth, h⟩ := bind_eq_ok h
  dsimp only at h
  split at h
  · cases h
  obtain ⟨⟨base, rest₄⟩, hbase, h⟩ := bind_eq_ok h
  obtain ⟨⟨reduced, rest₅⟩, hreduced, h⟩ := bind_eq_ok h
  obtain ⟨⟨patches, rest₆⟩, hpatches, h⟩ := bind_eq_ok h
  obtain ⟨restored, happly, h⟩ := bind_eq_ok h
  cases h
  dsimp only
  obtain ⟨hnonempty, hmost, htail⟩ := of_readCount hcount
  obtain ⟨-, -, hheld⟩ := Packing.of_read hreduced
  have hlength :
    (restored.map fun v => ofSignMagnitude (third.toNat / 32 + 1) base + Int64.ofNat v).length =
      count := by
    rw [List.length_map, Patched.length_applyPatches happly, hheld.length]
  -- each part takes octets, and none gives any back
  have h₁ := congrArg List.length (of_readByte hthird)
  have h₂ := congrArg List.length (of_readByte hfourth)
  have h₃ := length_readBE hbase
  have h₄ : rest₅.length ≤ rest₄.length := readPacked_length hreduced
  have h₅ : rest₆.length ≤ rest₅.length := readPacked_length hpatches
  rw [List.length_cons] at h₁ h₂
  apply Measured.of_four
  · rwa [hlength]
  · rwa [hlength]
  · rw [List.length_cons]
    omega

/-- A delta run has a head of two bytes and two varints. -/
theorem measured_readDelta (h : readDelta signed first bs = .ok (values, rest)) :
    Measured (first :: bs) rest values := by
  unfold readDelta at h
  obtain ⟨⟨count, rest₁⟩, hcount, h⟩ := bind_eq_ok h
  obtain ⟨⟨n, rest₂⟩, hstart, h⟩ := bind_eq_ok h
  obtain ⟨⟨step, rest₃⟩, hstep, h⟩ := bind_eq_ok h
  obtain ⟨hnonempty, hmost, htail⟩ := of_readCount hcount
  have h₁ := readVarint_length hstart
  have h₂ := readSignedVarint_length hstep
  dsimp only at h
  split at h
  · -- width code zero: the count alone says how many values follow
    cases h
    apply Measured.of_four
    · rwa [length_progression]
    · rwa [length_progression]
    · rw [List.length_cons]
      omega
  · split at h
    · cases h
    obtain ⟨⟨magnitudes, rest₄⟩, hpacked, h⟩ := bind_eq_ok h
    cases h
    obtain ⟨-, -, hheld⟩ := Packing.of_read hpacked
    have h₃ := readPacked_length hpacked
    have hmax : maxLength = 512 := rfl
    have hlength := hheld.length
    apply Measured.of_four <;> simp only [List.length_cons, length_walk] <;> omega

/-! ## (3) Any run -/

/-- **Every run that is read is measured**, whatever the bytes claim. -/
theorem measured_read (h : read signed bs = .ok (values, rest)) : Measured bs rest values := by
  unfold read at h
  obtain ⟨⟨first, tail⟩, hfirst, h⟩ := bind_eq_ok h
  rw [of_readByte hfirst]
  dsimp only at h
  split at h
  · exact measured_readShortRepeat h
  · exact measured_readDirect h
  · exact measured_readPatchedBase h
  · exact measured_readDelta h

/-- **A stream whose first run is read** gives the values of that run and those of the rest. -/
theorem readAll_of_read (h : read signed bs = .ok (values, rest)) :
    readAll signed bs = (readAll signed rest).map (values ++ ·) := by
  have hne : bs ≠ [] := by
    rintro rfl
    cases h
  rw [readAll, if_neg hne]
  split
  · rename_i e he
    cases he.symm.trans h
  · rename_i values' rest' hread
    cases hread.symm.trans h
    rfl

/-- A stream whose first run is at fault has that fault. -/
theorem readAll_of_fault {e : Fault} (hne : bs ≠ []) (h : read signed bs = .error e) :
    readAll signed bs = .error e := by
  rw [readAll, if_neg hne]
  split
  · rename_i e' he
    cases he.symm.trans h
    rfl
  · rename_i values rest hread
    cases hread.symm.trans h

/-- **A stream gives at most 128 values for each byte.** -/
theorem length_readAll (h : readAll signed bs = .ok values) : values.length ≤ 128 * bs.length := by
  induction hn : bs.length using Nat.strongRecOn generalizing bs values with
  | ind n ih =>
      subst hn
      rw [readAll] at h
      split at h
      · cases h
        exact Nat.zero_le _
      · split at h
        · cases h
        · rename_i front rest hread
          obtain ⟨others, hothers, rfl⟩ := map_eq_ok h
          have hmeasured := measured_read hread
          have hrest := ih rest.length (by have := hmeasured.takes; omega) hothers rfl
          have hdense := hmeasured.dense
          rw [List.length_append]
          omega

end Run

end ColumnFile
