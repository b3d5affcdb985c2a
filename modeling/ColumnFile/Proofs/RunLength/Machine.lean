import ColumnFile.Proofs.RunLength.Bounds
import ColumnFile.Proofs.RunLength.Operations

/-! # No stream leads a machine out of range

Header fields of a run may say anything: widths of a whole word, distances longer than their fields,
patches that walk off the run, bases of eight octets, runs of one step. On every byte string of a
length that a machine can address, its decoder reads what the plain reader reads, and whatever stops
it is a fault of the stream.

* **`Machine.follows_readRun`** — a run at any place; one lemma for each part and each type of run
  makes it up.
* **`MachineDecoder.gather_spec`** — the loop over the values of a stream.
* **`MachineDecoder.decodeAll_safe`** — whole streams, with the bounds of each run. -/

namespace ColumnFile

namespace Machine

variable {src : Bytes} {pos n : Nat}

/-! ## (1) Parts of a run -/

/-- An octet is read as on numbers. -/
theorem follows_readByte (hsrc : src.length < 2 ^ 63) (pos : Nat) :
    Follows src (readByte src pos) (Run.readByte (src.drop pos)) := by
  rw [readByte]
  by_cases hin : pos < src.length
  · rw [List.getElem?_eq_getElem hin, List.drop_eq_getElem_cons hin]
    dsimp only
    rw [add_eq (by omega), ok_bind]
    exact .ok _ (pos + 1) hin
  · rw [List.getElem?_eq_none (Nat.not_lt.mp hin), List.drop_eq_nil_of_le (Nat.not_lt.mp hin)]
    exact .fault _

/-- A number of octets that are there, behind the `k` bits that were read before. -/
theorem readBE_enough {size acc k : Nat} (hsrc : src.length < 2 ^ 63) (hacc : acc < 2 ^ k)
    (hk : k + 8 * size ≤ 64) (h : pos + size ≤ src.length) :
    readBE src size acc pos =
      .ok (((src.drop pos).take size).foldl (fun acc b => acc * 256 + b.toNat) acc,
        pos + size) := by
  induction size generalizing acc k pos with
  | zero => rfl
  | succ size ih =>
      have hin : pos < src.length := by omega
      have hb : src[pos].toNat < 2 ^ 8 := src[pos].toNat_lt
      have hbyte : readByte src pos = .ok (src[pos], pos + 1) := by
        rw [readByte, List.getElem?_eq_getElem hin]
        dsimp only
        rw [add_eq (by omega)]
        rfl
      rw [readBE, hbyte, ok_bind]
      dsimp only
      rw [shiftLeft_eq hacc (by omega) (by decide), ok_bind, shiftLeft_or hb,
        ih (shiftLeft_add_lt hacc hb) (by omega) (by omega), List.drop_eq_getElem_cons hin,
        List.take_succ_cons, List.foldl_cons, Nat.shiftLeft_eq, Nat.add_assoc, Nat.add_comm 1 size]

/-- Octets that are too few are refused. -/
theorem readBE_short {size acc k : Nat} (hsrc : src.length < 2 ^ 63) (hacc : acc < 2 ^ k)
    (hk : k + 8 * size ≤ 64) (h : src.length < pos + size) (hpos : pos ≤ src.length) :
    readBE src size acc pos = .error (.fault .runTruncated) := by
  induction size generalizing acc k pos with
  | zero => omega
  | succ size ih =>
      rw [readBE, readByte]
      by_cases hin : pos < src.length
      · have hb : src[pos].toNat < 2 ^ 8 := src[pos].toNat_lt
        rw [List.getElem?_eq_getElem hin]
        dsimp only
        rw [add_eq (by omega), ok_bind]
        show (shiftLeft acc 8 >>= fun acc => readBE src size (acc ||| src[pos].toNat) (pos + 1)) = _
        rw [shiftLeft_eq hacc (by omega) (by decide), ok_bind, shiftLeft_or hb]
        exact ih (shiftLeft_add_lt hacc hb) (by omega) (by omega) hin
      · rw [List.getElem?_eq_none (Nat.not_lt.mp hin)]
        rfl

/-- **A big-endian number** of no more octets than a word has. -/
theorem follows_readBE {size : Nat} (hsrc : src.length < 2 ^ 63) (hpos : pos ≤ src.length)
    (hsize : size ≤ 8) : Follows src (readBE src size 0 pos) (Run.readBE size (src.drop pos)) := by
  unfold Run.readBE Bytes.take?
  dsimp only
  by_cases hthere : pos + size ≤ src.length
  · have htake : ((src.drop pos).take size).length = size := by
      rw [List.length_take, List.length_drop]
      omega
    rw [readBE_enough (k := 0) hsrc (by decide) (by omega) hthere, if_pos htake, List.drop_drop]
    exact .ok _ (pos + size) hthere
  · have htake : ((src.drop pos).take size).length ≠ size := by
      rw [List.length_take, List.length_drop]
      omega
    rw [readBE_short (k := 0) hsrc (by decide) (by omega) (Nat.not_le.mp hthere) hpos, if_neg htake]
    exact .fault _

/-- A number of octets fits as many octets. -/
theorem lt_of_readBE {size : Nat} {bs rest : Bytes} (h : Run.readBE size bs = .ok (n, rest)) :
    n < 2 ^ (8 * size) := by
  unfold Run.readBE Bytes.take? at h
  dsimp only at h
  by_cases hfront : (bs.take size).length = size
  · rw [if_pos hfront] at h
    cases h
    have hlt := Bytes.toNatBE_lt (bs.take size)
    rw [hfront] at hlt
    rw [Nat.pow_mul]
    exact hlt
  · rw [if_neg hfront] at h
    cases h

/-- The count of a run is read as on numbers. -/
theorem follows_readCount (hsrc : src.length < 2 ^ 63) (first : UInt8) (pos : Nat) :
    Follows src (readCount src first pos) (Run.readCount first (src.drop pos)) := by
  refine (follows_readByte hsrc pos).bind ?_
  intro low pos' hpos' _
  have hlow : low.toNat < 2 ^ 8 := low.toNat_lt
  have hbit : first.toNat % 2 < 2 ^ 1 := Nat.mod_lt _ (by decide)
  have hhigh : (first.toNat % 2) <<< 8 = first.toNat % 2 * 256 := Nat.shiftLeft_eq _ _
  dsimp only
  rw [shiftLeft_eq hbit (by decide) (by decide), ok_bind, shiftLeft_or hlow, hhigh,
    add_eq (by omega), ok_bind]
  exact .ok _ pos' hpos'

/-- A number that ends below a bit has that bit clear. -/
theorem and_two_pow_of_lt {t : Nat} (h : n < 2 ^ t) : n &&& 2 ^ t = 0 := by
  apply Nat.eq_of_testBit_eq
  intro i
  rw [Nat.testBit_and, Nat.testBit_two_pow, Nat.zero_testBit]
  by_cases hi : t = i
  · rw [← hi, Nat.testBit_lt_two_pow h, Bool.false_and]
  · rw [decide_eq_false hi, Bool.and_false]

/-- A number with its highest bit `t` is that bit and the number without it. -/
theorem and_complement {t m : Nat} (ht : t < 64) (hm : m < 2 ^ t) :
    (2 ^ t + m) &&& 2 ^ t ≠ 0 ∧ (2 ^ t + m) &&& (2 ^ 64 - 1 - 2 ^ t) = m := by
  have hword : 2 ^ t < 2 ^ 64 := Nat.pow_lt_pow_right (by decide) ht
  have hsum : 2 ^ t + m = 2 ^ t ||| m := by
    have h := Nat.two_pow_add_eq_or_of_lt hm 1
    rwa [Nat.mul_one] at h
  constructor
  · intro hzero
    have hbit := congrArg (Nat.testBit · t) hzero
    rw [hsum, Nat.testBit_and, Nat.testBit_or, Nat.testBit_two_pow_self, Bool.true_or,
      Nat.zero_testBit] at hbit
    cases hbit
  · have hmask : 2 ^ 64 - 1 - 2 ^ t = 2 ^ 64 - (2 ^ t + 1) := by omega
    apply Nat.eq_of_testBit_eq
    intro i
    rw [hmask, hsum, Nat.testBit_and, Nat.testBit_or, Nat.testBit_two_pow_sub_succ hword,
      Nat.testBit_two_pow]
    by_cases hi : t = i
    · rw [← hi, Nat.testBit_lt_two_pow hm, decide_eq_true rfl, Bool.not_true, Bool.and_false,
        Bool.and_false]
    · rw [decide_eq_false hi, Bool.false_or, Bool.not_false, Bool.and_true]
      by_cases hin : i < 64
      · rw [decide_eq_true hin, Bool.and_true]
      · have hbeyond : m < 2 ^ i :=
          Nat.lt_of_lt_of_le hm (Nat.pow_le_pow_right (by decide) (by omega))
        rw [decide_eq_false hin, Bool.and_false, Nat.testBit_lt_two_pow hbeyond]

/-- **A base as sign and magnitude** has a negative within range: without its sign bit it is not the
least integer. -/
theorem ofSignMagnitude_eq {size : Nat} (hpos : 1 ≤ size) (hsize : size ≤ 8)
    (hn : n < 2 ^ (8 * size)) :
    ofSignMagnitude size n = .ok (Run.ofSignMagnitude size n) := by
  obtain ⟨t, ht⟩ : ∃ t, 8 * size = t + 1 := ⟨8 * size - 1, by omega⟩
  have htop : 8 * size - 1 = t := by omega
  have ht64 : t < 64 := by omega
  rw [ht] at hn
  rw [ofSignMagnitude, mul_eq (by omega), ok_bind, Nat.mul_comm, sub_eq (by omega), ok_bind, htop,
    shiftLeft_eq (k := 1) (by decide) (by omega) ht64, ok_bind, Run.ofSignMagnitude, htop,
    Nat.one_shiftLeft]
  by_cases hsign : n < 2 ^ t
  · rw [if_pos (and_two_pow_of_lt hsign), if_pos hsign]
    rfl
  · obtain ⟨m, rfl⟩ : ∃ m, n = 2 ^ t + m := ⟨n - 2 ^ t, by omega⟩
    have hm : m < 2 ^ t := by
      rw [Nat.pow_succ] at hn
      omega
    have hm63 : m < 2 ^ 63 := Nat.lt_of_lt_of_le hm (Nat.pow_le_pow_right (by decide) (by omega))
    obtain ⟨hset, hrest⟩ := and_complement ht64 hm
    have hleast : Int64.ofNat m ≠ Int64.minValue := by
      intro h
      have hint := congrArg Int64.toInt h
      rw [Int64.toInt_ofNat_of_lt hm63, Int64.toInt_minValue] at hint
      omega
    rw [if_neg hset, size_eq, hrest, negate, if_neg hleast, if_neg hsign, Nat.add_sub_cancel_left,
      Int64.ofInt_neg, Int64.ofInt_eq_ofNat]

/-- **Patches** whose distances stay below `2 ^ 16` do not carry the index past a word. -/
theorem applyPatches_eq {width patchWidth index : Nat} {patches values : List Nat}
    (hpatchWidth : patchWidth < 64) (hgap : ∀ p ∈ patches, p >>> patchWidth < 2 ^ 16)
    (hindex : index + 2 ^ 16 * patches.length < 2 ^ 64) :
    applyPatches width patchWidth (2 ^ patchWidth - 1) index patches values =
      (Patched.applyPatches width patchWidth index patches values).mapError .fault := by
  induction patches generalizing index values with
  | nil => rfl
  | cons p rest ih =>
      have hfirst := hgap p List.mem_cons_self
      have hrest : ∀ q ∈ rest, q >>> patchWidth < 2 ^ 16 := fun q hq =>
        hgap q (List.mem_cons_of_mem p hq)
      rw [List.length_cons] at hindex
      rw [applyPatches, Patched.applyPatches, shiftRight_eq hpatchWidth, ok_bind, add_eq (by omega),
        ok_bind, Nat.and_two_pow_sub_one_eq_mod, Nat.one_shiftLeft, Nat.one_shiftLeft]
      dsimp only
      generalize p % 2 ^ patchWidth = patch
      generalize hnext : index + p >>> patchWidth = index'
      have hindex' : index' + 2 ^ 16 * rest.length < 2 ^ 64 := by omega
      by_cases hbridge : p >>> patchWidth = Patched.maxGap ∧ patch = 0
      · rw [if_pos hbridge, if_pos hbridge]
        exact ih hrest hindex'
      · rw [if_neg hbridge, if_neg hbridge]
        cases values[index']? with
        | none => rfl
        | some v =>
            -- digits past the word are dropped, also where all of them lie past it
            have hhigh : (if width < 64 then patch <<< width % 2 ^ 64 else 0) =
              patch <<< width % 2 ^ 64 := by
              by_cases hwidth : width < 64
              · rw [if_pos hwidth]
              · have hdvd : 2 ^ 64 ∣ patch <<< width := by
                  rw [Nat.shiftLeft_eq]
                  exact Nat.dvd_mul_left_of_dvd (Nat.pow_dvd_pow 2 (Nat.not_lt.mp hwidth)) patch
                rw [if_neg hwidth, Nat.mod_eq_zero_of_dvd hdvd]
            dsimp only
            rw [size_eq, hhigh]
            exact ih hrest hindex'

/-! ## (2) One type of run after another -/

/-- **A short repeat** is read as on numbers. -/
theorem follows_readShortRepeat (hsrc : src.length < 2 ^ 63) (signed : Bool) (first : UInt8)
    (hpos : pos ≤ src.length) :
    Follows src (readShortRepeat signed src first pos)
      (Run.readShortRepeat signed first (src.drop pos)) := by
  refine (follows_readBE hsrc hpos (by omega)).bind ?_
  intro n pos' hpos' hread
  have hword : n < 2 ^ 64 :=
    Nat.lt_of_lt_of_le (lt_of_readBE hread) (Nat.pow_le_pow_right (by decide) (by omega))
  dsimp only
  rw [ofNumber_eq hword, ok_bind]
  exact .ok _ pos' hpos'

/-- The numbers of a packed run are words. -/
theorem words_of_read {count width : Nat} {bs rest : Bytes} {numbers : List Nat}
    (h : Packing.read count width bs = .ok (numbers, rest)) : ∀ m ∈ numbers, m < 2 ^ 64 := by
  intro m hm
  obtain ⟨-, -, hheld⟩ := Packing.of_read h
  exact Nat.lt_of_lt_of_le (hheld.fits m hm)
    (Nat.pow_le_pow_right (by decide) (Packing.rung_le width))

/-- **A direct run** is read as on numbers. -/
theorem follows_readDirect (hsrc : src.length < 2 ^ 63) (signed : Bool) (first : UInt8)
    (pos : Nat) :
    Follows src (readDirect signed src first pos) (Run.readDirect signed first (src.drop pos)) := by
  refine (follows_readCount hsrc first pos).bind ?_
  intro count pos₁ hpos₁ hcount
  have hmost : count ≤ 512 := (Run.of_readCount hcount).2.1
  refine (follows_unpack hsrc hpos₁ hmost _).bind ?_
  intro numbers pos₂ hpos₂ hnumbers
  have hvalues : numbers.mapM (ofNumber signed) = .ok (numbers.map (Run.ofNumber signed)) :=
    mapM_eq_map fun m hm => ofNumber_eq (words_of_read hnumbers m hm) signed
  dsimp only
  rw [hvalues, ok_bind]
  exact .ok _ pos₂ hpos₂

/-- **A patch has room for a distance of less than `2 ^ 16`**: the width at which it is packed goes
at most 16 bits past that of its high digits. -/
theorem aligned_fixed_le {patchWidth gapWidth : Nat} (hmem : patchWidth ∈ Width.fixedLadder)
    (hgap : gapWidth ≤ 8) (hsum : patchWidth + gapWidth ≤ 64) :
    Width.aligned (Width.fixed (patchWidth + gapWidth)) ≤ patchWidth + 16 := by
  have hall : ∀ w ∈ Width.fixedLadder, ∀ g < 9, w + g ≤ 64 →
      Width.aligned (Width.fixed (w + g)) ≤ w + 16 := by decide
  exact hall patchWidth hmem gapWidth (Nat.lt_succ_of_le hgap) hsum

/-- **A patched run** is read as on numbers. -/
theorem follows_readPatchedBase (hsrc : src.length < 2 ^ 63) (first : UInt8) (pos : Nat) :
    Follows src (readPatchedBase src first pos) (Run.readPatchedBase first (src.drop pos)) := by
  refine (follows_readCount hsrc first pos).bind ?_
  intro count pos₁ _ hcount
  refine (follows_readByte hsrc pos₁).bind ?_
  intro third pos₂ _ _
  refine (follows_readByte hsrc pos₂).bind ?_
  intro fourth pos₃ hpos₃ _
  have hmost : count ≤ 512 := (Run.of_readCount hcount).2.1
  have hthird : third.toNat < 256 := third.toNat_lt
  have hfourth : fourth.toNat < 256 := fourth.toNat_lt
  have hmem : Width.ofCode (third.toNat % 32) ∈ Width.fixedLadder := Width.ofCode_mem _
  dsimp only
  generalize Width.ofCode (third.toNat % 32) = patchWidth at hmem
  by_cases hwide : 64 < patchWidth + (fourth.toNat / 32 + 1)
  · rw [if_pos hwide, if_pos hwide]
    exact .fault _
  · rw [if_neg hwide, if_neg hwide]
    refine (follows_readBE hsrc hpos₃ (by omega)).bind ?_
    intro n pos₄ hpos₄ hn
    dsimp only
    rw [ofSignMagnitude_eq (by omega) (by omega) (lt_of_readBE hn), ok_bind]
    refine (follows_unpack hsrc hpos₄ hmost _).bind ?_
    intro reduced pos₅ hpos₅ _
    refine (follows_unpack hsrc hpos₅ (by omega) _).bind ?_
    intro patches pos₆ hpos₆ hpatches
    obtain ⟨-, -, hheld⟩ := Packing.of_read hpatches
    have hcount' := hheld.length
    have hpatchWidth : patchWidth < 64 := by omega
    -- a patch is packed in few more bits than its high digits take, and the rest is its distance
    have hgap : ∀ p ∈ patches, p >>> patchWidth < 2 ^ 16 := by
      intro p hp
      have hwidth : Width.fixed (patchWidth + (fourth.toNat / 32 + 1)) ≠ 0 :=
        Nat.ne_of_gt (Width.bounds_fixed _).1
      have hroom : Width.aligned (Width.fixed (patchWidth + (fourth.toNat / 32 + 1))) ≤
        patchWidth + 16 :=
        aligned_fixed_le hmem (by omega) (by omega)
      have hfits := hheld.fits p hp
      rw [Packing.rung, if_neg hwidth] at hfits
      rw [Nat.shiftRight_eq_div_pow, Nat.div_lt_iff_lt_mul (Nat.two_pow_pos _), ← Nat.pow_add,
        Nat.add_comm 16]
      exact Nat.lt_of_lt_of_le hfits (Nat.pow_le_pow_right (by decide) hroom)
    dsimp only
    rw [shiftLeft_eq (k := 1) (by decide) (by omega) hpatchWidth, ok_bind, Nat.one_shiftLeft,
      sub_eq (Nat.two_pow_pos patchWidth), ok_bind]
    refine .lift (applyPatches_eq hpatchWidth hgap (by omega)) ?_
    intro values _
    exact .ok _ pos₆ hpos₆

/-- **A run of differences** is read as on numbers. -/
theorem follows_readDelta (hsrc : src.length < 2 ^ 63) (signed : Bool) (first : UInt8) (pos : Nat) :
    Follows src (readDelta signed src first pos) (Run.readDelta signed first (src.drop pos)) := by
  refine (follows_readCount hsrc first pos).bind ?_
  intro count pos₁ hpos₁ hcount
  have hmost : count ≤ 512 := (Run.of_readCount hcount).2.1
  refine .bind_map UInt64.toNat (follows_readVarint hsrc hpos₁) ?_
  intro start pos₂ hpos₂ _
  dsimp only
  rw [ofNumber_eq start.toNat_lt, ok_bind]
  have hstep : Varint.readSigned (src.drop pos₂) =
      (Varint.read (src.drop pos₂) >>= fun p => .ok (Zigzag.decode p.1, p.2)) := rfl
  rw [hstep, bind_assoc]
  refine .bind_map UInt64.toNat (follows_readVarint hsrc hpos₂) ?_
  intro step pos₃ hpos₃ _
  dsimp only
  rw [zigzag_eq step.toNat_lt, ok_bind, ok_bind, UInt64.ofNat_toNat]
  dsimp only
  by_cases hcode : Run.widthCode first = 0
  · rw [if_pos hcode, if_pos hcode]
    exact .ok _ pos₃ hpos₃
  · rw [if_neg hcode, if_neg hcode]
    by_cases hshort : count < 2
    · rw [if_pos hshort, if_pos hshort]
      exact .fault _
    · rw [if_neg hshort, if_neg hshort, sub_eq (Nat.not_lt.mp hshort), ok_bind]
      refine (follows_unpack hsrc hpos₃ (by omega) _).bind ?_
      intro magnitudes pos₄ hpos₄ _
      exact .ok _ pos₄ hpos₄

/-- **A run at any place** is followed. -/
theorem follows_readRun (hsrc : src.length < 2 ^ 63) (signed : Bool) (pos : Nat) :
    Follows src (readRun signed src pos) (Run.read signed (src.drop pos)) := by
  refine (follows_readByte hsrc pos).bind ?_
  intro first pos' hpos' _
  dsimp only
  cases RunType.ofFirstByte first with
  | shortRepeat => exact follows_readShortRepeat hsrc signed first hpos'
  | direct => exact follows_readDirect hsrc signed first pos'
  | patchedBase => exact follows_readPatchedBase hsrc first pos'
  | delta => exact follows_readDelta hsrc signed first pos'

end Machine

namespace MachineDecoder

open Machine

variable {d d₁ : MachineDecoder} {signed : Bool} {src : Bytes}

/-! ## (3) Values in turn -/

/-- **A decoder within range**: its places lie in the byte string and in the values of the last
run. -/
structure Within (d : MachineDecoder) : Prop where
  src : d.src.length < 2 ^ 63
  pos : d.pos ≤ d.src.length
  used : d.used ≤ d.literals.length
  literals : d.literals.length ≤ 512

/-- The next value is the first one that is left once there is one. -/
theorem next_eq (hrefill : d.refill = .ok d₁) (hmost : d₁.literals.length ≤ 512)
    (hlt : d₁.used < d₁.literals.length) :
    d.next = .ok (d₁.literals[d₁.used], { d₁ with used := d₁.used + 1 }) := by
  rw [next, hrefill, ok_bind, entry, List.getElem?_eq_getElem hlt]
  dsimp only
  rw [ok_bind, add_eq (by omega)]
  rfl

/-- **A run is read when all values were given**; it has a value, and its bytes pay for all of
them. -/
theorem refill_spec (h : d.Within) (hnone : d.used = d.literals.length) :
    (∃ e, Run.read d.signed (d.src.drop d.pos) = .error e ∧ d.refill = .error (.fault e)) ∨
      ∃ values pos, Run.read d.signed (d.src.drop d.pos) = .ok (values, d.src.drop pos) ∧
        d.refill = .ok { d with pos, literals := values, used := 0 } ∧ pos ≤ d.src.length ∧
        0 < values.length ∧ values.length ≤ 512 ∧
        values.length + 128 * (d.src.length - pos) ≤ 128 * (d.src.length - d.pos) := by
  rw [refill, if_pos hnone]
  have hfollows := follows_readRun h.src d.signed d.pos
  cases hread : Run.read d.signed (d.src.drop d.pos) with
  | error e =>
      rw [hread] at hfollows
      generalize hrun : readRun d.signed d.src d.pos = run at hfollows
      cases hfollows
      exact .inl ⟨e, rfl, rfl⟩
  | ok p =>
      obtain ⟨values, rest⟩ := p
      have hmeasured := Run.measured_read hread
      rw [hread] at hfollows
      generalize hrun : readRun d.signed d.src d.pos = run at hfollows
      cases hfollows with
      | ok _ pos hpos =>
          have hdense := hmeasured.dense
          rw [List.length_drop, List.length_drop] at hdense
          exact .inr ⟨values, pos, rfl, rfl, hpos, hmeasured.nonempty, hmeasured.most, hdense⟩

/-- A decoder with nothing left gives nothing. -/
theorem gather_end {turns : Nat} (hnone : d.hasMore = false) :
    gather turns d =
      ((Run.readAll d.signed (d.src.drop d.pos)).map (d.literals.drop d.used ++ ·)).mapError
        .fault := by
  have hempty : gather turns d = .ok [] := by
    cases turns <;> rw [gather, hnone] <;> rfl
  rw [hasMore, Bool.or_eq_false_iff, decide_eq_false_iff_not, decide_eq_false_iff_not] at hnone
  have hread : Run.readAll d.signed [] = .ok [] := by rw [Run.readAll, if_pos rfl]
  rw [hempty, List.drop_eq_nil_of_le (Nat.not_lt.mp hnone.1),
    List.drop_eq_nil_of_le (Nat.not_lt.mp hnone.2), hread]
  rfl

/-- **The loop over the values** of a stream ends before its turns do, with what the plain reader
reads: each turn gives a value, and the turns that are left pay for the values that are left. -/
theorem gather_spec {turns : Nat} (h : d.Within)
    (hturns : d.literals.length - d.used + 128 * (d.src.length - d.pos) ≤ turns) :
    gather turns d =
      ((Run.readAll d.signed (d.src.drop d.pos)).map (d.literals.drop d.used ++ ·)).mapError
        .fault := by
  have hused := h.used
  have hpos := h.pos
  -- a turn gives one value; a run that is read has at most 128 values for each octet that it takes,
  -- so there are turns enough
  induction turns generalizing d with
  | zero =>
      refine gather_end ?_
      rw [hasMore, decide_eq_false (by omega), decide_eq_false (by omega)]
      rfl
  | succ turns ih =>
      by_cases hmore : d.hasMore = true
      · rw [gather, if_pos hmore]
        by_cases hlt : d.used < d.literals.length
        · -- a value of the last run is left
          have hrefill : d.refill = .ok d := by rw [refill, if_neg (Nat.ne_of_lt hlt)]
          have hrest := ih (d := { d with used := d.used + 1 }) ⟨h.src, h.pos, hlt, h.literals⟩
            (by dsimp only; omega) hlt hpos
          rw [next_eq hrefill h.literals hlt, ok_bind]
          dsimp only at hrest ⊢
          rw [hrest, List.drop_eq_getElem_cons hlt]
          cases Run.readAll d.signed (d.src.drop d.pos) <;> rfl
        · -- a run has to be read, and its first value is given at once
          have hnone : d.used = d.literals.length := by omega
          have hleft : d.pos < d.src.length := by
            rw [hasMore, decide_eq_false hlt, Bool.false_or, decide_eq_true_eq] at hmore
            exact hmore
          have hne : d.src.drop d.pos ≠ [] := by
            intro hnil
            rw [List.drop_eq_nil_iff] at hnil
            omega
          rw [hnone, List.drop_length]
          rcases refill_spec h hnone with ⟨e, hread, hrefill⟩ |
            ⟨values, pos, hread, hrefill, hend, hsome, hmost, hpay⟩
          · rw [next, hrefill, Run.readAll_of_fault hne hread]
            rfl
          · have hrest := ih (d := { d with pos, literals := values, used := 1 })
              ⟨h.src, hend, hsome, hmost⟩ (by dsimp only; omega) hsome hend
            rw [next_eq hrefill hmost hsome, ok_bind, Run.readAll_of_read hread]
            dsimp only at hrest ⊢
            rw [hrest]
            cases values with
            | nil => cases hsome
            | cons v front => cases Run.readAll d.signed (d.src.drop pos) <;> rfl
      · exact gather_end (Bool.not_eq_true _ ▸ hmore)

/-! ## (4) Whole streams -/

/-- **A whole stream** is read as the plain reader reads it. -/
theorem decodeAll_eq (signed : Bool) {src : Bytes} (h : src.length < 2 ^ 63) :
    decodeAll signed src = (Run.readAll signed src).mapError .fault := by
  have hwithin : ({ signed, src } : MachineDecoder).Within :=
    ⟨h, Nat.zero_le _, Nat.le_refl _, Nat.zero_le _⟩
  have hturns : 0 - 0 + 128 * (src.length - 0) ≤ 128 * src.length := by omega
  rw [decodeAll, gather_spec hwithin hturns]
  show ((Run.readAll signed src).map ([] ++ ·)).mapError Stop.fault = _
  cases Run.readAll signed src <;> rfl

/-- **No stream leads a machine out of range.** At every place its reader gives the run that the
plain reader gives, or stops for the same fault of the stream; a run that it gives has at least one
value and at most 512 and takes at least two bytes. So the loop over a whole stream ends, in a fault
of the stream or with the values that the plain reader gives, which are at most 128 for each
byte. -/
theorem decodeAll_safe (signed : Bool) {src : Bytes} (h : src.length < 2 ^ 63) :
    (∀ pos, Follows src (readRun signed src pos) (Run.read signed (src.drop pos))) ∧
      (∀ pos values stop, readRun signed src pos = .ok (values, stop) →
        1 ≤ values.length ∧ values.length ≤ 512 ∧ pos + 2 ≤ stop ∧ stop ≤ src.length) ∧
      decodeAll signed src = (Run.readAll signed src).mapError .fault ∧
      ((∃ cause, decodeAll signed src = .error (.fault cause)) ∨
        ∃ values, decodeAll signed src = .ok values ∧ values.length ≤ 128 * src.length) := by
  have hall := decodeAll_eq signed h
  refine ⟨follows_readRun h signed, ?_, hall, ?_⟩
  · intro pos values stop hrun
    have hfollows := follows_readRun h signed pos
    rw [hrun] at hfollows
    obtain ⟨hread, hstop⟩ := hfollows.of_ok
    have hmeasured := Run.measured_read hread
    have htakes := hmeasured.takes
    rw [List.length_drop, List.length_drop] at htakes
    exact ⟨hmeasured.nonempty, hmeasured.most, by omega, hstop⟩
  · rw [hall]
    cases hread : Run.readAll signed src with
    | error cause => exact .inl ⟨cause, rfl⟩
    | ok values => exact .inr ⟨values, rfl, Run.length_readAll hread⟩

/-- Two patched base runs with a base of eight octets that is negative and patches of one digit
whose distances are declared eight bits wide and packed in fifteen: the patch of the first points at
its second value, that of the second run 32767 places on. -/
def longGap : Bytes :=
  [0x80, 0x01, 0xE0, 0xE1, 0xFF, 0xFF, 0xFF, 0xFF, 0xFF, 0xFF, 0xFF, 0xFF, 0x40, 0x00, 0x03] ++
    [0x80, 0x01, 0xE0, 0xE1, 0xFF, 0xFF, 0xFF, 0xFF, 0xFF, 0xFF, 0xFF, 0xFF, 0x40, 0xFF, 0xFF]

/-- The first run is read, and the patch that walks off the second one is a fault of the stream. -/
theorem decodeAll_safe_long_gap :
    longGap.length < 2 ^ 63 ∧
      Run.read true longGap = .ok ([-9223372036854775807, -9223372036854775804], longGap.drop 15) ∧
      decodeAll true longGap = .error (.fault .patchIndex) := by
  have hlength : longGap.length < 2 ^ 63 := by decide
  obtain ⟨hruns, -, hall, -⟩ := decodeAll_safe true hlength
  have hfirst : readRun true longGap 0 = .ok ([-9223372036854775807, -9223372036854775804], 15) :=
    rfl
  have hsecond : readRun true longGap 15 = .error (.fault .patchIndex) := rfl
  have hread := hruns 0
  have hstop := hruns 15
  rw [hfirst] at hread
  rw [hsecond] at hstop
  have hread : Run.read true longGap =
    .ok ([-9223372036854775807, -9223372036854775804], longGap.drop 15) :=
    hread.of_ok.1
  refine ⟨hlength, hread, ?_⟩
  rw [hall, Run.readAll_of_read hread, Run.readAll_of_fault (by decide) hstop.of_fault]
  rfl

end MachineDecoder

end ColumnFile
