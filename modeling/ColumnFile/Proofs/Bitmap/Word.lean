import ColumnFile.Bitmap

/-! # The bits of a word

What the masks of a bitmap pick from a word, and how its set bits are counted off from the lowest.

* **`Word.getLsbD_write`**, **`Word.and_single_ne_zero`** — one bit written and read.
* **`Word.ones_eq`**, **`Word.ones_window`** — the count of set bits, also between two positions.
* **`Word.getElem?_places`** — dropping the lowest set bit `k` times leads to the set bit that has
  `k` set bits before it. -/

namespace ColumnFile

namespace Word

/-! ## (1) Masks -/

/-- **Two words** with the same bits are equal. -/
theorem ext {w v : Word} (h : ∀ j < 64, w.getLsbD j = v.getLsbD j) : w = v :=
  BitVec.eq_of_getLsbD_eq h

/-- A single bit is that of its place. -/
theorem getLsbD_single (i : Nat) {j : Nat} (hj : j < 64) :
    (single i).getLsbD j = decide (j = i % 64) := by
  have hi : i % 64 < 64 := Nat.mod_lt i (by decide)
  rw [single, BitVec.getLsbD_shiftLeft, BitVec.getLsbD_one, decide_eq_true hj]
  by_cases h : j < i % 64
  · simp [h, Nat.ne_of_lt h]
  · simp only [h, decide_false, Bool.not_false, Bool.and_true, Bool.true_and, Nat.zero_lt_succ,
      decide_true]
    exact decide_eq_decide.mpr (by omega)

/-- The bits from a place on are those that are not before it. -/
theorem getLsbD_onward (i : Nat) {j : Nat} (hj : j < 64) :
    (onward i).getLsbD j = decide (i % 64 ≤ j) := by
  have hin : j - i % 64 < 64 := by omega
  rw [onward, BitVec.getLsbD_shiftLeft, BitVec.getLsbD_allOnes, decide_eq_true hj,
    decide_eq_true hin, Bool.true_and, Bool.and_true, ← decide_not]
  exact decide_eq_decide.mpr Nat.not_lt

/-- The bits up to a place are those that are not behind it. -/
theorem getLsbD_upTo (i j : Nat) : (upTo i).getLsbD j = decide (j ≤ i % 64) := by
  have hi : i % 64 < 64 := Nat.mod_lt i (by decide)
  rw [upTo, BitVec.getLsbD_ushiftRight, BitVec.getLsbD_allOnes]
  exact decide_eq_decide.mpr (by omega)

/-- **A bit that is written** is there; the others stay. -/
theorem getLsbD_write (w : Word) (i : Nat) (val : Bool) {j : Nat} (hj : j < 64) :
    (w.write i val).getLsbD j = if j = i % 64 then val else w.getLsbD j := by
  have hclear : (w &&& ~~~ single i).getLsbD j = (w.getLsbD j && decide (j ≠ i % 64)) := by
    rw [BitVec.getLsbD_and, BitVec.getLsbD_not, getLsbD_single i hj, decide_eq_true hj,
      Bool.true_and, ← decide_not]
  have hset : (w ||| single i).getLsbD j = (w.getLsbD j || decide (j = i % 64)) := by
    rw [BitVec.getLsbD_or, getLsbD_single i hj]
  rw [write]
  cases val with
  | true =>
      rw [if_pos rfl, hset]
      by_cases h : j = i % 64 <;> simp [h]
  | false =>
      rw [if_neg Bool.false_ne_true, hclear]
      by_cases h : j = i % 64 <;> simp [h]

/-- **A word meets the mask of a position** when the bit is set there. -/
theorem and_single_ne_zero (w : Word) (i : Nat) :
    (w &&& single i != 0#64) = w.getLsbD (i % 64) := by
  have hi : i % 64 < 64 := Nat.mod_lt i (by decide)
  have hbit (j : Nat) (hj : j < 64) :
      (w &&& single i).getLsbD j = (decide (j = i % 64) && w.getLsbD (i % 64)) := by
    rw [BitVec.getLsbD_and, getLsbD_single i hj]
    by_cases h : j = i % 64
    · rw [h, decide_eq_true rfl, Bool.and_true, Bool.true_and]
    · rw [decide_eq_false h, Bool.and_false, Bool.false_and]
  cases hset : w.getLsbD (i % 64) with
  | true =>
      have hne : w &&& single i ≠ 0#64 := by
        intro hzero
        have h := hbit (i % 64) hi
        rw [hzero, hset, decide_eq_true rfl, BitVec.getLsbD_zero] at h
        exact Bool.false_ne_true h
      exact bne_iff_ne.mpr hne
  | false =>
      have hzero : w &&& single i = 0#64 := by
        refine ext fun j hj => ?_
        rw [hbit j hj, hset, Bool.and_false]
        exact (BitVec.getLsbD_zero).symm
      rw [hzero]
      rfl

/-! ## (2) The count of set bits -/

/-- The positions of the set bits of a word, in ascending order. -/
def places (w : Word) : List Nat := (List.range 64).filter w.getLsbD

/-- **Counting the ones** of a word is counting the places that have one. -/
theorem cpopNatRec_eq_countP (w : Word) (n : Nat) :
    w.cpopNatRec n 0 = (List.range n).countP w.getLsbD := by
  induction n with
  | zero => rfl
  | succ n ih =>
      rw [BitVec.cpopNatRec_succ, BitVec.cpopNatRec_add, ih, List.range_succ, List.countP_append,
        List.countP_singleton]
      cases w.getLsbD n <;> rfl

/-- **The count of set bits** is the number of positions at which a bit is set. -/
theorem ones_eq (w : Word) : w.ones = (List.range 64).countP w.getLsbD := by
  rw [ones, BitVec.toNat_cpop, cpopNatRec_eq_countP]

/-- A word has as many places as ones. -/
theorem length_places (w : Word) : w.places.length = w.ones := by
  rw [places, ones_eq, List.countP_eq_length_filter]

/-- The positions before, between and after two of them. -/
theorem range_split {lo hi n : Nat} (hlo : lo ≤ hi) (hhi : hi ≤ n) :
    List.range n = List.range lo ++ List.range' lo (hi - lo) ++ List.range' hi (n - hi) := by
  have h₁ : List.range lo ++ List.range' lo (hi - lo) = List.range' 0 hi := by
    rw [List.range_eq_range', ← Nat.add_sub_cancel' hlo, ← List.range'_append_1, Nat.zero_add,
      Nat.add_sub_cancel_left]
  have h₂ : List.range' 0 hi ++ List.range' hi (n - hi) = List.range n := by
    rw [List.range_eq_range', ← Nat.add_sub_cancel' hhi, ← List.range'_append_1, Nat.zero_add,
      Nat.add_sub_cancel_left]
  rw [h₁, h₂]

/-- **The count of set bits between two positions** is that of the word in which the other bits are
zero. -/
theorem ones_window {w v : Word} {lo hi : Nat} (hhi : hi ≤ 64)
    (hv : ∀ j < 64, v.getLsbD j = (w.getLsbD j && decide (lo ≤ j) && decide (j < hi))) :
    v.ones = (List.range' lo (hi - lo)).countP w.getLsbD := by
  by_cases hlo : lo ≤ hi
  -- no bit is set before the window or behind it, and in it both words agree
  · have hbelow : (List.range lo).countP v.getLsbD = 0 := by
      refine List.countP_eq_zero.mpr fun j hj => ?_
      have hj := List.mem_range.mp hj
      rw [hv j (by omega), decide_eq_false (by omega : ¬ lo ≤ j)]
      simp
    have habove : (List.range' hi (64 - hi)).countP v.getLsbD = 0 := by
      refine List.countP_eq_zero.mpr fun j hj => ?_
      have hj := List.mem_range'_1.mp hj
      rw [hv j (by omega), decide_eq_false (by omega : ¬ j < hi)]
      simp
    have hinside : (List.range' lo (hi - lo)).countP v.getLsbD =
        (List.range' lo (hi - lo)).countP w.getLsbD := by
      refine List.countP_congr fun j hj => ?_
      have hj := List.mem_range'_1.mp hj
      rw [hv j (by omega), decide_eq_true hj.1, decide_eq_true (by omega : j < hi)]
      simp
    rw [ones_eq, range_split hlo hhi, List.countP_append, List.countP_append, hbelow,
      habove, hinside]
    omega
  -- an empty window
  · have hnone : hi - lo = 0 := by omega
    rw [hnone, List.range'_zero, List.countP_nil, ones_eq]
    refine List.countP_eq_zero.mpr fun j hj => ?_
    rw [hv j (List.mem_range.mp hj)]
    by_cases h : lo ≤ j
    · simp [show ¬ j < hi by omega]
    · simp [h]

/-! ## (3) The set bits from the lowest on -/

/-- **Of a number and its predecessor** the bits above the lowest set one agree, and below it none
is set in the number. -/
theorem getLsbD_dropLowest {w : Word} (h : w ≠ 0#64) (j : Nat) :
    w.dropLowest.getLsbD j = (w.getLsbD j && decide (j ≠ w.lowest)) := by
  have hset : w.getLsbD w.lowest = true := BitVec.getLsbD_true_ctz_of_ne_zero h
  have hbelow (i : Nat) (hi : i < w.lowest) : w.getLsbD i = false :=
    BitVec.getLsbD_false_of_lt_ctz hi
  -- `w` is an odd number shifted to its lowest set bit
  have hform : ∃ q, w.toNat = 2 ^ (w.lowest + 1) * q + 2 ^ w.lowest := by
    refine ⟨w.toNat / 2 ^ (w.lowest + 1), Nat.eq_of_testBit_eq fun i => ?_⟩
    have hlt : 2 ^ w.lowest < 2 ^ (w.lowest + 1) := Nat.pow_lt_pow_right (by decide) (by omega)
    rw [Nat.testBit_two_pow_mul_add _ hlt, Nat.testBit_two_pow, Nat.testBit_div_two_pow]
    by_cases hi : i < w.lowest
    · have h₀ : w.toNat.testBit i = false := hbelow i hi
      rw [if_pos (by omega), h₀, decide_eq_false (by omega)]
    · by_cases hi' : i = w.lowest
      · have h₁ : w.toNat.testBit w.lowest = true := hset
        rw [hi', if_pos (by omega), h₁, decide_eq_true rfl]
      · rw [if_neg (by omega), Nat.sub_add_cancel (by omega)]
  obtain ⟨q, hq⟩ := hform
  have hpos : 0 < 2 ^ w.lowest := Nat.two_pow_pos _
  have hlt : w.toNat < 2 ^ 64 := w.isLt
  have hpred : (w - 1#64).toNat = 2 ^ (w.lowest + 1) * q + (2 ^ w.lowest - 1) := by
    have hone : (1#64).toNat = 1 := rfl
    rw [BitVec.toNat_sub, hone]
    omega
  have hpredBit : (w - 1#64).getLsbD j =
      if j < w.lowest + 1 then decide (j < w.lowest) else w.getLsbD j := by
    have hlow : 2 ^ w.lowest - 1 < 2 ^ (w.lowest + 1) := by
      have := Nat.pow_lt_pow_right (a := 2) (by decide) (by omega : w.lowest < w.lowest + 1)
      omega
    have hhigh : 2 ^ w.lowest < 2 ^ (w.lowest + 1) := Nat.pow_lt_pow_right (by decide) (by omega)
    show (w - 1#64).toNat.testBit j = if j < w.lowest + 1 then decide (j < w.lowest)
      else w.toNat.testBit j
    rw [hpred, Nat.testBit_two_pow_mul_add _ hlow, Nat.testBit_two_pow_sub_one]
    by_cases hj' : j < w.lowest + 1
    · rw [if_pos hj', if_pos hj']
    · rw [if_neg hj', if_neg hj', hq, Nat.testBit_two_pow_mul_add _ hhigh, if_neg hj']
  rw [dropLowest, BitVec.getLsbD_and, hpredBit]
  by_cases hj' : j < w.lowest
  · rw [hbelow j hj', Bool.false_and, Bool.false_and]
  · by_cases heq : j = w.lowest
    · simp [heq]
    · rw [if_neg (by omega), Bool.and_self, decide_eq_true heq, Bool.and_true]

/-- The lowest one of a word is within the word. -/
theorem lowest_lt {w : Word} (h : w ≠ 0#64) : w.lowest < 64 := by
  have hset : w.getLsbD w.lowest = true := BitVec.getLsbD_true_ctz_of_ne_zero h
  exact BitVec.lt_of_getLsbD hset

/-- **The lowest set bit** is the first of the set bits, and without it the others are left. -/
theorem places_eq {w : Word} (h : w ≠ 0#64) : w.places = w.lowest :: w.dropLowest.places := by
  have hset : w.getLsbD w.lowest = true := BitVec.getLsbD_true_ctz_of_ne_zero h
  have hlt := lowest_lt h
  have hsplit : List.range 64 =
      List.range w.lowest ++ [w.lowest] ++ List.range' (w.lowest + 1) (64 - (w.lowest + 1)) := by
    have hone : List.range' w.lowest (w.lowest + 1 - w.lowest) = [w.lowest] := by
      rw [Nat.add_sub_cancel_left, List.range'_one]
    rw [range_split (Nat.le_succ w.lowest) hlt, hone]
  have hbelow : (List.range w.lowest).filter w.getLsbD = [] := by
    refine List.filter_eq_nil_iff.mpr fun i hi => ?_
    rw [BitVec.getLsbD_false_of_lt_ctz (List.mem_range.mp hi)]
    exact Bool.false_ne_true
  have hbelow' : (List.range w.lowest).filter w.dropLowest.getLsbD = [] := by
    refine List.filter_eq_nil_iff.mpr fun i hi => ?_
    have hi := List.mem_range.mp hi
    rw [getLsbD_dropLowest h, BitVec.getLsbD_false_of_lt_ctz hi]
    exact Bool.false_ne_true
  have hdropped : w.dropLowest.getLsbD w.lowest = false := by
    rw [getLsbD_dropLowest h, decide_eq_false (fun hne => hne rfl), Bool.and_false]
  have habove : (List.range' (w.lowest + 1) (64 - (w.lowest + 1))).filter w.dropLowest.getLsbD =
      (List.range' (w.lowest + 1) (64 - (w.lowest + 1))).filter w.getLsbD := by
    refine List.filter_congr fun i hi => ?_
    have hi := List.mem_range'_1.mp hi
    rw [getLsbD_dropLowest h, decide_eq_true (by omega), Bool.and_true]
  have hone : [w.lowest].filter w.getLsbD = [w.lowest] := List.filter_cons_of_pos hset
  have hone' : [w.lowest].filter w.dropLowest.getLsbD = [] :=
    List.filter_cons_of_neg (by rw [hdropped]; exact Bool.false_ne_true)
  simp only [places, hsplit, List.filter_append, hbelow, hbelow', hone, hone', habove,
    List.nil_append, List.singleton_append]

/-- No bits, no places. -/
theorem places_zero : places 0#64 = [] := by decide

/-- **Dropping the lowest set bit `k` times** leads to the set bit that has `k` set bits before
it. -/
theorem getElem?_places (w : Word) {k : Nat} (hk : k < w.ones) :
    w.places[k]? = some (Nat.repeat dropLowest k w).lowest := by
  induction k generalizing w with
  | zero =>
      have hne : w ≠ 0#64 := by
        rintro rfl
        rw [← length_places, places_zero] at hk
        exact absurd hk (Nat.not_lt_zero _)
      rw [places_eq hne]
      rfl
  | succ k ih =>
      have hne : w ≠ 0#64 := by
        rintro rfl
        rw [← length_places, places_zero] at hk
        exact absurd hk (Nat.not_lt_zero _)
      have hrest : k < w.dropLowest.ones := by
        rw [← length_places, places_eq hne, List.length_cons, length_places] at hk
        omega
      have hcomm : Nat.repeat dropLowest (k + 1) w = Nat.repeat dropLowest k w.dropLowest := by
        clear ih hk hne hrest
        induction k with
        | zero => rfl
        | succ k ih => rw [Nat.repeat, ih, Nat.repeat]
      rw [places_eq hne, List.getElem?_cons_succ, ih w.dropLowest hrest, hcomm]

end Word

end ColumnFile
