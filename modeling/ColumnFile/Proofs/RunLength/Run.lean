import ColumnFile.RunLength.Run
import ColumnFile.Proofs.Fault
import ColumnFile.Proofs.Integer.Packing
import ColumnFile.Proofs.Integer.Varint
import ColumnFile.Proofs.RunLength.Patch

/-! # Runs read back

What a run stores, and that its bytes read back as that, whatever follows them.

* **`Run.Stores`** — the values that a run stores, with the bounds that its fields need.
* **`Run.read_encode`** — the bytes of a run read back as the values it stores; one lemma for each
  of the run types makes it up. -/

namespace ColumnFile

namespace Run

/-! ## (1) What a run stores -/

/-- **The values that a run stores**, if its fields fit their places in the bytes. -/
def Stores (signed : Bool) (values : List Int64) : Run → Prop
  | shortRepeat value count =>
    minRepeat ≤ count ∧ count ≤ maxShortRepeat ∧ values = List.replicate count value
  | direct width literals =>
    width ∈ Width.fixedLadder ∧ 0 < literals.length ∧ literals.length ≤ maxLength ∧
      (∀ v ∈ literals, (number signed v).toNat < 2 ^ width) ∧ values = literals
  | patchedBase base above =>
    above.Fits ∧ 0 < above.reduced.length ∧ above.reduced.length ≤ maxLength ∧
      base.toInt.natAbs < 2 ^ 56 ∧
      ∃ excess, Patched.applyPatches above.width above.patchWidth 0 above.patches above.reduced =
          .ok excess ∧ values = excess.map fun v => base + Int64.ofNat v
  | fixedDelta first step count =>
    0 < count ∧ count ≤ maxLength ∧ values = progression step first count
  | delta first step width magnitudes =>
    width ∈ Width.fixedLadder ∧ 2 ≤ width ∧ magnitudes.length + 2 ≤ maxLength ∧
      (∀ m ∈ magnitudes, m < 2 ^ width) ∧
      values = first :: (first + step) :: walk (step < 0) (first + step) magnitudes

@[simp] theorem length_walk (falling : Bool) (value : Int64) (magnitudes : List Nat) :
    (walk falling value magnitudes).length = magnitudes.length := by
  induction magnitudes generalizing value with
  | nil => rfl
  | cons m rest ih => rw [walk, List.length_cons, ih, List.length_cons]

@[simp] theorem length_progression (step first : Int64) (count : Nat) :
    (progression step first count).length = count := by
  induction count generalizing first with
  | zero => rfl
  | succ count ih => rw [progression, List.length_cons, ih]

/-- **Every run stores some value**, and no more than a run can hold. -/
theorem Stores.length {signed : Bool} {values : List Int64} {run : Run}
    (h : run.Stores signed values) :
    0 < values.length ∧ values.length ≤ maxLength := by
  cases run with
  | shortRepeat value count =>
      obtain ⟨hmin, hmax, rfl⟩ := h
      rw [List.length_replicate]
      exact ⟨Nat.lt_of_lt_of_le (by decide) hmin, Nat.le_trans hmax (by decide)⟩
  | direct width literals =>
      obtain ⟨-, hpos, hmax, -, rfl⟩ := h
      exact ⟨hpos, hmax⟩
  | patchedBase base above =>
      obtain ⟨-, hpos, hmax, -, excess, happly, rfl⟩ := h
      rw [List.length_map, Patched.length_applyPatches happly]
      exact ⟨hpos, hmax⟩
  | fixedDelta first step count =>
      obtain ⟨hpos, hmax, rfl⟩ := h
      rw [length_progression]
      exact ⟨hpos, hmax⟩
  | delta first step width magnitudes =>
      obtain ⟨-, -, hmax, -, rfl⟩ := h
      rw [List.length_cons, List.length_cons, length_walk]
      exact ⟨Nat.succ_pos _, hmax⟩

/-! ## (2) Numbers and heads -/

/-- The number of a value stands for that value. -/
@[simp] theorem ofNumber_number (signed : Bool) (v : Int64) :
    ofNumber signed (number signed v).toNat = v := by
  cases signed with
  | true =>
      show Zigzag.decode (UInt64.ofNat (Zigzag.encode v).toNat) = v
      rw [UInt64.ofNat_toNat, Zigzag.decode_encode]
  | false =>
      show Int64.ofNat v.toUInt64.toNat = v
      rw [← UInt64.toInt64_ofNat', UInt64.ofNat_toNat, Int64.toInt64_toUInt64]

/-- **The two bytes of a head** give its type, its width code and its count. -/
theorem header_spec (type : RunType) (code count : Nat) (hcode : code < 32) (hpos : 0 < count)
    (hcount : count ≤ maxLength) :
    ∃ first low, header type code count = [first, low] ∧ RunType.ofFirstByte first = type ∧
      widthCode first = code ∧ ∀ rest, readCount first (low :: rest) = .ok (count, rest) := by
  have h512 : count ≤ 512 := hcount
  have htag : type.tag < 4 := by cases type <;> decide
  have hfirst : (UInt8.ofNat (type.tag * 64 + code * 2 + (count - 1) / 256)).toNat =
      type.tag * 64 + code * 2 + (count - 1) / 256 := by
    rw [UInt8.toNat_ofNat', Nat.mod_eq_of_lt (by omega)]
  have hlow : (UInt8.ofNat (count - 1)).toNat = (count - 1) % 256 := UInt8.toNat_ofNat'
  refine ⟨_, _, rfl, ?_, ?_, ?_⟩
  · have hdiv : (type.tag * 64 + code * 2 + (count - 1) / 256) / 64 = type.tag := by omega
    rw [RunType.ofFirstByte, hfirst, hdiv]
    cases type <;> rfl
  · rw [widthCode, hfirst]
    omega
  · intro rest
    have hvalue : (type.tag * 64 + code * 2 + (count - 1) / 256) % 2 * 256 + (count - 1) % 256 + 1 =
        count := by omega
    show Except.ok _ = _
    rw [hfirst, hlow, hvalue]

/-- A big-endian number that fits its bytes reads back. -/
theorem readBE_ofNatBE {size n : Nat} (rest : Bytes) (h : n < 2 ^ (8 * size)) :
    readBE size (Bytes.ofNatBE size n ++ rest) = .ok (n, rest) := by
  have htake := Bytes.take?_append (Bytes.ofNatBE size n) rest
  rw [Bytes.length_ofNatBE] at htake
  have hpow : 256 ^ size = 2 ^ (8 * size) := by rw [Nat.pow_mul]
  rw [readBE, htake]
  dsimp only
  rw [Bytes.toNatBE_ofNatBE, hpow, Nat.mod_eq_of_lt h]

/-! ## (3) Short repeats, direct runs and progressions -/

/-- **A short repeat** reads back. -/
theorem read_shortRepeat {signed : Bool} {value : Int64} {count : Nat} (rest : Bytes)
    (hmin : minRepeat ≤ count) (hmax : count ≤ maxShortRepeat) :
    read signed ((shortRepeat value count).encode signed ++ rest) =
      .ok (List.replicate count value, rest) := by
  have h3 : 3 ≤ count := hmin
  have h10 : count ≤ 10 := hmax
  rw [encode]
  -- the value takes as many octets as its width has, counted in the first byte
  generalize hn : (number signed value).toNat = n
  have hn64 : n < 2 ^ 64 := hn ▸ UInt64.toNat_lt _
  have hwidth := Width.bounds_of_mem_fixedLadder (Width.required_mem n)
  have hfit := Width.lt_two_pow_required hn64
  generalize Width.required n = width at hwidth hfit
  have hsize : n < 2 ^ (8 * ((width + 7) / 8)) :=
    Nat.lt_of_lt_of_le hfit (Nat.pow_le_pow_right (by decide) (by omega))
  have hfirst : (UInt8.ofNat (((width + 7) / 8 - 1) * 8 + (count - minRepeat))).toNat =
      ((width + 7) / 8 - 1) * 8 + (count - 3) := by
    rw [UInt8.toNat_ofNat', minRepeat, Nat.mod_eq_of_lt (by omega)]
  -- the first byte gives the type, the octets and the count again
  have htype : RunType.ofFirstByte
      (UInt8.ofNat (((width + 7) / 8 - 1) * 8 + (count - minRepeat))) = .shortRepeat := by
    have hzero : (((width + 7) / 8 - 1) * 8 + (count - 3)) / 64 = 0 := by omega
    rw [RunType.ofFirstByte, hfirst, hzero]
    rfl
  have hread : (((width + 7) / 8 - 1) * 8 + (count - 3)) / 8 % 8 + 1 = (width + 7) / 8 := by omega
  have hcount : (((width + 7) / 8 - 1) * 8 + (count - 3)) % 8 + minRepeat = count := by
    rw [minRepeat]
    omega
  rw [List.cons_append, read, readByte, ok_bind]
  dsimp only
  rw [htype]
  dsimp only
  rw [readShortRepeat, hfirst, hread, hcount, readBE_ofNatBE rest hsize, ok_bind, ← hn]
  show Except.ok _ = _
  rw [ofNumber_number]

/-- **A direct run** reads back. -/
theorem read_direct {signed : Bool} {width : Nat} {values : List Int64} (rest : Bytes)
    (hwidth : width ∈ Width.fixedLadder) (hpos : 0 < values.length)
    (hmax : values.length ≤ maxLength) (hfit : ∀ v ∈ values, (number signed v).toNat < 2 ^ width) :
    read signed ((direct width values).encode signed ++ rest) = .ok (values, rest) := by
  obtain ⟨first, low, hheader, htype, hcode, hcount⟩ :=
    header_spec .direct _ _ (Width.code_lt width) hpos hmax
  have hpack := Packing.read_pack (values.map fun v => (number signed v).toNat) rest
    (Width.bounds_of_mem_fixedLadder hwidth).2
    (by
      intro n hn
      obtain ⟨v, hv, rfl⟩ := List.mem_map.mp hn
      exact hfit v hv)
  rw [List.length_map] at hpack
  have hnumbers : (values.map fun v => (number signed v).toNat).map (ofNumber signed) = values := by
    rw [List.map_map]
    exact List.map_id'' (fun v => ofNumber_number signed v) values
  rw [encode, hheader, List.append_assoc, List.cons_append, List.cons_append, List.nil_append, read,
    readByte, ok_bind]
  dsimp only
  rw [htype]
  dsimp only
  rw [readDirect, hcount, ok_bind]
  dsimp only
  rw [hcode, Width.ofCode_code hwidth, hpack, ok_bind]
  dsimp only
  rw [hnumbers]
  rfl

/-- **A run with one step** reads back. -/
theorem read_fixedDelta {signed : Bool} {first step : Int64} {count : Nat} (rest : Bytes)
    (hpos : 0 < count) (hmax : count ≤ maxLength) :
    read signed ((fixedDelta first step count).encode signed ++ rest) =
      .ok (progression step first count, rest) := by
  obtain ⟨head, low, hheader, htype, hcode, hcount⟩ :=
    header_spec .delta 0 count (by decide) hpos hmax
  rw [encode, hheader, List.append_assoc, List.append_assoc, List.cons_append, List.cons_append,
    List.nil_append, read, readByte, ok_bind]
  dsimp only
  rw [htype]
  dsimp only
  rw [readDelta, hcount, ok_bind]
  dsimp only
  rw [Varint.read_encode, ok_bind]
  dsimp only
  rw [Varint.readSigned_encodeSigned, ok_bind]
  dsimp only
  rw [hcode, if_pos rfl, ofNumber_number]
  rfl

/-- **A run of differences** reads back. -/
theorem read_delta {signed : Bool} {first step : Int64} {width : Nat} {magnitudes : List Nat}
    (rest : Bytes) (hwidth : width ∈ Width.fixedLadder) (htwo : 2 ≤ width)
    (hmax : magnitudes.length + 2 ≤ maxLength) (hfit : ∀ m ∈ magnitudes, m < 2 ^ width) :
    read signed ((delta first step width magnitudes).encode signed ++ rest) =
      .ok (first :: (first + step) :: walk (step < 0) (first + step) magnitudes, rest) := by
  obtain ⟨head, low, hheader, htype, hcode, hcount⟩ :=
    header_spec .delta _ (magnitudes.length + 2) (Width.code_lt width) (by omega) hmax
  have hpack := Packing.read_pack magnitudes rest (Width.bounds_of_mem_fixedLadder hwidth).2 hfit
  have hcodePos := Width.code_pos htwo hwidth
  rw [encode, hheader, List.append_assoc, List.append_assoc, List.append_assoc, List.cons_append,
    List.cons_append, List.nil_append, read, readByte, ok_bind]
  dsimp only
  rw [htype]
  dsimp only
  rw [readDelta, hcount, ok_bind]
  dsimp only
  rw [Varint.read_encode, ok_bind]
  dsimp only
  rw [Varint.readSigned_encodeSigned, ok_bind]
  dsimp only
  rw [hcode, if_neg (by omega), if_neg (by omega), Nat.add_sub_cancel,
    Width.ofCode_code hwidth, hpack, ok_bind, ofNumber_number]
  rfl

/-! ## (4) Patched base runs -/

/-- A base of fewer than 56 digits and its sign fit eight bytes. -/
theorem baseBytes_spec {base : Int64} (h : base.toInt.natAbs < 2 ^ 56) :
    0 < baseBytes base ∧ baseBytes base ≤ 8 ∧ base.toInt.natAbs < 2 ^ (8 * baseBytes base - 1) := by
  have hsmall : ∀ n < 57, Width.fixed n ≤ 56 := by decide
  have hwidth := hsmall _ (Nat.lt_succ_of_le (Width.bitLength_le h))
  have hfit : base.toInt.natAbs < 2 ^ Width.required base.toInt.natAbs :=
    Width.lt_two_pow_required (Nat.lt_trans h (by decide))
  have hbytes : baseBytes base = (Width.required base.toInt.natAbs + 1 + 7) / 8 := rfl
  rw [← Width.required] at hwidth
  refine ⟨by omega, by omega, ?_⟩
  exact Nat.lt_of_lt_of_le hfit (Nat.pow_le_pow_right (by decide) (by omega))

/-- **Sign and magnitude** give the base back. -/
theorem ofSignMagnitude_spec {base : Int64} {size : Nat} (hsize : 0 < size)
    (h : base.toInt.natAbs < 2 ^ (8 * size - 1)) :
    ofSignMagnitude size ((if base < 0 then 2 ^ (8 * size - 1) else 0) + base.toInt.natAbs) = base ∧
      (if base < 0 then 2 ^ (8 * size - 1) else 0) + base.toInt.natAbs < 2 ^ (8 * size) := by
  have hpow : 2 ^ (8 * size) = 2 ^ (8 * size - 1) + 2 ^ (8 * size - 1) := by
    rw [← Nat.mul_two, ← Nat.pow_succ]
    congr 1
    omega
  unfold ofSignMagnitude
  simp only [Nat.one_shiftLeft]
  by_cases hneg : base < 0
  · have hint : base.toInt < 0 := Int64.lt_iff_toInt_lt.mp hneg
    rw [if_pos hneg, if_neg (by omega), Nat.add_sub_cancel_left]
    refine ⟨?_, by omega⟩
    rw [show (-(base.toInt.natAbs : Int)) = base.toInt by omega, Int64.ofInt_toInt]
  · have hint : 0 ≤ base.toInt := Int64.le_iff_toInt_le.mp (Int64.not_lt.mp hneg)
    rw [if_neg hneg, Nat.zero_add, if_pos h]
    refine ⟨?_, by omega⟩
    rw [← Int64.ofInt_eq_ofNat, show (base.toInt.natAbs : Int) = base.toInt by omega,
      Int64.ofInt_toInt]

/-- **A patched run** reads back. -/
theorem read_patchedBase {signed : Bool} {base : Int64} {above : Patched} {excess : List Nat}
    (rest : Bytes) (hfits : above.Fits) (hpos : 0 < above.reduced.length)
    (hmax : above.reduced.length ≤ maxLength) (hbase : base.toInt.natAbs < 2 ^ 56)
    (happly : Patched.applyPatches above.width above.patchWidth 0 above.patches above.reduced =
      .ok excess) :
    read signed ((patchedBase base above).encode signed ++ rest) =
      .ok (excess.map fun v => base + Int64.ofNat v, rest) := by
  obtain ⟨head, low, hheader, htype, hcode, hcount⟩ :=
    header_spec .patchedBase _ _ (Width.code_lt above.width) hpos hmax
  obtain ⟨hsize, hsizeMax, hmagnitude⟩ := baseBytes_spec hbase
  obtain ⟨hsign, hsignFit⟩ := ofSignMagnitude_spec hsize hmagnitude
  have hgapPos := hfits.gapWidth_pos
  have hgapMax := hfits.gapWidth_le
  have hwidths := hfits.widths_le
  have hpatchCode := Width.code_lt above.patchWidth
  have hpatches : above.patches.length ≤ 31 := hfits.count_le
  -- the third and the fourth byte hold two fields each
  have hthird : (UInt8.ofNat ((baseBytes base - 1) * 32 + Width.code above.patchWidth)).toNat =
      (baseBytes base - 1) * 32 + Width.code above.patchWidth := by
    rw [UInt8.toNat_ofNat', Nat.mod_eq_of_lt (by omega)]
  have hfourth : (UInt8.ofNat ((above.gapWidth - 1) * 32 + above.patches.length)).toNat =
      (above.gapWidth - 1) * 32 + above.patches.length := by
    rw [UInt8.toNat_ofNat', Nat.mod_eq_of_lt (by omega)]
  have hfield₁ : ((baseBytes base - 1) * 32 + Width.code above.patchWidth) % 32 =
      Width.code above.patchWidth := by omega
  have hfield₂ : ((baseBytes base - 1) * 32 + Width.code above.patchWidth) / 32 + 1 =
      baseBytes base := by omega
  have hfield₃ : ((above.gapWidth - 1) * 32 + above.patches.length) / 32 + 1 = above.gapWidth := by
    omega
  have hfield₄ : ((above.gapWidth - 1) * 32 + above.patches.length) % 32 =
    above.patches.length := by
    omega
  -- the low digits and the patches read back at the widths they are packed at
  have hreduced := Packing.read_pack above.reduced
    (Packing.pack above.patches (Width.fixed (above.gapWidth + above.patchWidth)) ++ rest)
    (Width.bounds_of_mem_fixedLadder hfits.width_mem).2 hfits.reduced_lt
  have hentries := Packing.read_pack above.patches rest
    (Width.bounds_fixed (above.gapWidth + above.patchWidth)).2
    (fun e he => Nat.lt_of_lt_of_le (hfits.patches_lt e he)
      (Nat.pow_le_pow_right (by decide) (Width.le_fixed hwidths)))
  rw [encode, hheader, encodeBase]
  simp only [Nat.one_shiftLeft, List.append_assoc, List.cons_append, List.nil_append]
  rw [read, readByte, ok_bind]
  dsimp only
  rw [htype]
  dsimp only
  rw [readPatchedBase, hcount, ok_bind]
  dsimp only
  rw [readByte, ok_bind]
  dsimp only
  rw [readByte, ok_bind]
  dsimp only
  rw [hthird, hfourth, hfield₁, hfield₂, hfield₃, hfield₄, Width.ofCode_code hfits.patchWidth_mem,
    Nat.add_comm above.patchWidth above.gapWidth, if_neg (by omega),
    readBE_ofNatBE _ hsignFit, ok_bind]
  dsimp only
  rw [hcode, Width.ofCode_code hfits.width_mem, hreduced, ok_bind]
  dsimp only
  rw [hentries, ok_bind]
  dsimp only
  rw [happly, ok_bind, hsign]
  rfl

/-! ## (5) Every run -/

/-- **A run reads back as the values that it stores**, whatever follows it. -/
theorem read_encode {signed : Bool} {values : List Int64} {run : Run} (rest : Bytes)
    (h : run.Stores signed values) :
    read signed (run.encode signed ++ rest) = .ok (values, rest) := by
  cases run with
  | shortRepeat value count =>
      obtain ⟨hmin, hmax, rfl⟩ := h
      exact read_shortRepeat rest hmin hmax
  | direct width literals =>
      obtain ⟨hwidth, hpos, hmax, hfit, rfl⟩ := h
      exact read_direct rest hwidth hpos hmax hfit
  | patchedBase base above =>
      obtain ⟨hfits, hpos, hmax, hbase, excess, happly, rfl⟩ := h
      exact read_patchedBase rest hfits hpos hmax hbase happly
  | fixedDelta first step count =>
      obtain ⟨hpos, hmax, rfl⟩ := h
      exact read_fixedDelta rest hpos hmax
  | delta first step width magnitudes =>
      obtain ⟨hwidth, htwo, hmax, hfit, rfl⟩ := h
      exact read_delta rest hwidth htwo hmax hfit

end Run

end ColumnFile
