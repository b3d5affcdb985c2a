import ColumnFile.Proofs.Bitmap.Basic

/-! # Counting the bits of a bitmap

Set bits are counted and looked for word by word. As no bit is set behind the end, what is found is
what the list of bits says.

* **`Bitmap.Tidy.countRange_eq`**, **`Bitmap.Tidy.count_eq`** — a count is the number of positions
  at which a bit is set.
* **`Bitmap.countRange_ofList`**, **`Bitmap.count_ofList`**, **`Bitmap.any_ofList`** — counts in
  terms of the list.
* **`Bitmap.Tidy.select_eq`** — the position of a set bit with a given number of set bits before
  it. -/

namespace ColumnFile

namespace Bitmap

/-! ## (1) Counts -/

/-- The count of set bits of a part of a word is the number of positions in it at which a bit is
set. -/
theorem ones_eq_countP (b : Bitmap) (k : Nat) {v : Word} {lo hi : Nat} (hhi : hi ≤ 64)
    (hv : ∀ j < 64, v.getLsbD j = ((b.word k).getLsbD j && decide (lo ≤ j) && decide (j < hi))) :
    v.ones = (List.range' (64 * k + lo) (hi - lo)).countP b.bit := by
  rw [Word.ones_window hhi hv, ← List.map_add_range', List.countP_map]
  refine List.countP_congr fun j hj => ?_
  have hj := List.mem_range'_1.mp hj
  rw [Function.comp_apply, bit_add b k (by omega)]

/-- **The count of set bits of some words** is the number of positions in them at which a bit is
set. -/
theorem onesOf_extract (b : Bitmap) (k n : Nat) (h : k + n ≤ b.words.size) :
    onesOf (b.words.extract k (k + n)) = (List.range' (64 * k) (64 * n)).countP b.bit := by
  induction n with
  | zero =>
      rw [Nat.add_zero, Array.extract_eq_empty_of_le (by omega)]
      rfl
  | succ n ih =>
      have hin : k + n < b.words.size := by omega
      have hword : b.words[k + n].ones =
        (List.range' (64 * (k + n) + 0) (64 - 0)).countP b.bit := by
        refine ones_eq_countP b (k + n) (Nat.le_refl 64) fun j hj => ?_
        rw [word, Array.getElem?_eq_getElem hin, Option.getD_some, decide_eq_true (Nat.zero_le j),
          decide_eq_true hj, Bool.and_true, Bool.and_true]
      have hsplit : List.range' (64 * k) (64 * (n + 1)) =
          List.range' (64 * k) (64 * n) ++ List.range' (64 * (k + n) + 0) (64 - 0) := by
        have hnext : 64 * (k + n) + 0 = 64 * k + 64 * n := by omega
        rw [hnext, Nat.mul_succ, List.range'_append_1]
      have hlast : onesOf (b.words.extract k (k + n + 1)) =
          onesOf (b.words.extract k (k + n)) + b.words[k + n].ones := by
        rw [onesOf, Array.extract_succ_right (by omega) hin, Array.foldl_push]
        rfl
      rw [← Nat.add_assoc, hlast, ih (by omega), hword, hsplit, List.countP_append]

/-- **The count of set bits of a range** is the number of positions in it at which a bit is set,
whether the range lies in one word or goes over several. -/
theorem Tidy.countRange_eq {b : Bitmap} (h : b.Tidy) (start stop : Nat) :
    b.countRange start stop = (List.range' start (min stop b.len - start)).countP b.get := by
  have hget : b.get = b.bit := funext h.get_eq
  rw [hget, countRange]
  dsimp only
  by_cases hnone : min start (min stop b.len) = min stop b.len
  · have hzero : min stop b.len - start = 0 := by omega
    rw [if_pos hnone, hzero]
    rfl
  -- the range has a position, so it begins and ends in words that are there
  · have hstart : min start (min stop b.len) = start := by omega
    have hsize := h.size_words
    rw [wordsFor] at hsize
    rw [if_neg hnone, hstart]
    generalize hend : min stop b.len = last at *
    have hmod : (last - 1) % 64 + 1 ≤ 64 := by omega
    by_cases hone : start / 64 = (last - 1) / 64
    -- both ends are in one word
    · have hword : (b.word (start / 64) &&& Word.onward start &&& Word.upTo (last - 1)).ones =
          (List.range' (64 * (start / 64) + start % 64) ((last - 1) % 64 + 1 - start % 64)).countP
            b.bit := by
        refine ones_eq_countP b _ hmod fun j hj => ?_
        rw [BitVec.getLsbD_and, BitVec.getLsbD_and, Word.getLsbD_onward start hj, Word.getLsbD_upTo]
        congr 1
        exact decide_eq_decide.mpr (by omega)
      have hlow : 64 * (start / 64) + start % 64 = start := Nat.div_add_mod start 64
      have hcount : (last - 1) % 64 + 1 - start % 64 = last - start := by omega
      rw [if_pos hone, hword, hlow, hcount]
    -- the range begins in one word and ends in another one; the words between them count as a whole
    · have hfirst : (b.word (start / 64) &&& Word.onward start).ones =
          (List.range' (64 * (start / 64) + start % 64) (64 - start % 64)).countP b.bit := by
        refine ones_eq_countP b _ (Nat.le_refl 64) fun j hj => ?_
        rw [BitVec.getLsbD_and, Word.getLsbD_onward start hj, decide_eq_true hj, Bool.and_true]
      have hlast : (b.word ((last - 1) / 64) &&& Word.upTo (last - 1)).ones =
          (List.range' (64 * ((last - 1) / 64) + 0) ((last - 1) % 64 + 1 - 0)).countP b.bit := by
        refine ones_eq_countP b _ hmod fun j hj => ?_
        rw [BitVec.getLsbD_and, Word.getLsbD_upTo, decide_eq_true (Nat.zero_le j), Bool.and_true]
        congr 1
        exact decide_eq_decide.mpr (by omega)
      obtain ⟨n, hn⟩ : ∃ n, (last - 1) / 64 = start / 64 + 1 + n :=
        ⟨(last - 1) / 64 - (start / 64 + 1), by omega⟩
      have hmiddle := onesOf_extract b (start / 64 + 1) n (by omega)
      have hlow : 64 * (start / 64) + start % 64 = start := Nat.div_add_mod start 64
      -- the positions of the first word, of those between, and of the last one
      have hsplit : List.range' start (last - start) =
          List.range' start (64 - start % 64) ++ List.range' (64 * (start / 64 + 1)) (64 * n) ++
            List.range' (64 * ((last - 1) / 64) + 0) ((last - 1) % 64 + 1 - 0) := by
        have h₁ : 64 * (start / 64 + 1) = start + (64 - start % 64) := by omega
        have h₂ : 64 * ((last - 1) / 64) + 0 = start + (64 - start % 64 + 64 * n) := by omega
        have h₃ : last - start = 64 - start % 64 + 64 * n + ((last - 1) % 64 + 1 - 0) := by omega
        rw [h₁, h₂, h₃, List.range'_append_1, List.range'_append_1]
      rw [if_neg hone, hfirst, hlast, hn, hmiddle, hlow, ← hn, hsplit, List.countP_append,
        List.countP_append]

/-- The positions of all words are those of the bits and some at which no bit is set. -/
theorem Tidy.range_words {b : Bitmap} (h : b.Tidy) : ∃ past : List Nat,
    List.range (64 * b.words.size) = List.range b.len ++ past ∧ ∀ i ∈ past, ¬ b.bit i = true := by
  have hsize : b.len ≤ 64 * b.words.size := by
    rw [h.size_words, wordsFor]
    omega
  refine ⟨List.range' b.len (64 * b.words.size - b.len), ?_, fun i hi => ?_⟩
  · rw [List.range_eq_range', List.range_eq_range', ← Nat.add_sub_cancel' hsize,
      ← List.range'_append_1, Nat.zero_add, Nat.add_sub_cancel_left]
  · rw [h.clean i (List.mem_range'_1.mp hi).1]
    exact Bool.false_ne_true

/-- **The count of set bits** is the number of positions at which a bit is set. -/
theorem Tidy.count_eq {b : Bitmap} (h : b.Tidy) : b.count = (List.range b.len).countP b.get := by
  have hget : b.get = b.bit := funext h.get_eq
  have hall := onesOf_extract b 0 b.words.size (by omega)
  rw [Nat.zero_add, Array.extract_eq_self_of_le (Nat.le_refl _), Nat.mul_zero,
    ← List.range_eq_range'] at hall
  obtain ⟨past, hsplit, hpast⟩ := h.range_words
  rw [count, hall, hget, hsplit, List.countP_append, List.countP_eq_zero.mpr hpast, Nat.add_zero]

/-- The whole range has all set bits. -/
theorem Tidy.countRange_len {b : Bitmap} (h : b.Tidy) : b.countRange 0 b.len = b.count := by
  rw [h.countRange_eq, Nat.min_self, Nat.sub_zero, ← List.range_eq_range', h.count_eq]

/-- The bits of a list between two positions. -/
theorem countP_get_ofList (l : List Bool) (start stop : Nat) :
    (List.range' start (min stop l.length - start)).countP (ofList l).get =
      ((l.take stop).drop start).countP id := by
  have hmap : (List.range' start (min stop l.length - start)).map (ofList l).get =
      (l.take stop).drop start := by
    apply List.ext_getElem
    · rw [List.length_map, List.length_range', List.length_drop, List.length_take]
    · intro i h₁ h₂
      rw [List.length_drop, List.length_take] at h₂
      have hin : start + i < l.length := by omega
      rw [List.getElem_map, List.getElem_range', Nat.one_mul, get_ofList,
        List.getElem?_eq_getElem hin, Option.getD_some, List.getElem_drop, List.getElem_take]
  rw [← hmap, List.countP_map]
  rfl

/-- **The count of set bits of a range** is that of the list. -/
theorem countRange_ofList (l : List Bool) (start stop : Nat) :
    (ofList l).countRange start stop = ((l.take stop).drop start).countP id := by
  rw [(tidy_ofList l).countRange_eq, len_ofList, countP_get_ofList]

/-- **The count of set bits** is that of the list. -/
theorem count_ofList (l : List Bool) : (ofList l).count = l.countP id := by
  have h := countP_get_ofList l 0 l.length
  rw [Nat.min_self, Nat.sub_zero, List.take_length, List.drop_zero, ← List.range_eq_range'] at h
  rw [(tidy_ofList l).count_eq, len_ofList, h]

/-- **Some word is not zero** exactly when some bit is set. -/
theorem any_iff (b : Bitmap) : b.any = true ↔ ∃ i, b.bit i = true := by
  rw [any, Array.any_eq_true]
  constructor
  · rintro ⟨k, hk, hne⟩
    have hne : b.words[k] ≠ 0#64 := bne_iff_ne.mp hne
    refine ⟨64 * k + b.words[k].lowest, ?_⟩
    rw [bit_add b k (Word.lowest_lt hne), word, Array.getElem?_eq_getElem hk, Option.getD_some]
    exact BitVec.getLsbD_true_ctz_of_ne_zero hne
  · rintro ⟨i, hi⟩
    have hk : i / 64 < b.words.size := by
      refine Nat.not_le.mp fun hout => ?_
      rw [bit_eq_false hout] at hi
      exact Bool.false_ne_true hi
    refine ⟨i / 64, hk, bne_iff_ne.mpr fun hzero => ?_⟩
    rw [bit, word, Array.getElem?_eq_getElem hk, Option.getD_some, hzero, BitVec.getLsbD_zero] at hi
    exact Bool.false_ne_true hi

/-- **Some bit is set** exactly when some member of the list is. -/
theorem any_ofList (l : List Bool) : (ofList l).any = l.any id := by
  rw [Bool.eq_iff_iff, any_iff, List.any_eq_true]
  constructor
  · rintro ⟨i, hi⟩
    rw [bit_ofList] at hi
    cases hget : l[i]? with
    | none =>
        rw [hget] at hi
        exact absurd hi Bool.false_ne_true
    | some bit =>
        rw [hget, Option.getD_some] at hi
        exact ⟨bit, List.mem_of_getElem? hget, hi⟩
  · rintro ⟨bit, hmem, hset⟩
    obtain ⟨i, hi⟩ := List.mem_iff_getElem?.mp hmem
    refine ⟨i, ?_⟩
    rw [bit_ofList, hi, Option.getD_some]
    exact hset

/-! ## (2) Positions of set bits -/

/-- **Looking for a set bit word by word** finds it among the positions of all set bits. -/
theorem selectFrom_eq (words : List Word) (base k : Nat) :
    selectFrom words base k = (((List.range (64 * words.length)).filter
      fun i => (words[i / 64]?.getD 0#64).getLsbD (i % 64))[k]?).map (base + ·) := by
  induction words generalizing base k with
  -- the first word gives the numbers below 64, and the others follow with 64 added
  | nil => rfl
  | cons w words ih =>
      have hfirst : (List.range 64).filter
          (fun i => ((w :: words)[i / 64]?.getD 0#64).getLsbD (i % 64)) = w.places := by
        refine List.filter_congr fun i hi => ?_
        have hdiv : i / 64 = 0 := Nat.div_eq_of_lt (List.mem_range.mp hi)
        rw [hdiv, Nat.mod_eq_of_lt (List.mem_range.mp hi)]
        rfl
      have hrest : (fun i => ((w :: words)[i / 64]?.getD 0#64).getLsbD (i % 64)) ∘ (64 + ·) =
          fun i => (words[i / 64]?.getD 0#64).getLsbD (i % 64) := by
        funext i
        have hdiv : (64 + i) / 64 = i / 64 + 1 := by omega
        have hmod : (64 + i) % 64 = i % 64 := by omega
        rw [Function.comp_apply, hdiv, hmod, List.getElem?_cons_succ]
      have hall : 64 * (w :: words).length = 64 + 64 * words.length := by
        rw [List.length_cons]
        omega
      rw [selectFrom, hall, List.range_add, List.filter_append, hfirst, List.filter_map, hrest]
      by_cases hk : k < w.ones
      -- the position asked for is in the first word, or behind as many set bits as that has
      · rw [if_pos hk, List.getElem?_append_left (by rwa [Word.length_places]),
          Word.getElem?_places w hk, Option.map_some]
      · rw [if_neg hk, ih, List.getElem?_append_right (by rw [Word.length_places]; omega),
          Word.length_places, List.getElem?_map, Option.map_map]
        congr 1
        funext i
        exact Nat.add_assoc base 64 i

/-- **The set bit with `k` set bits before it** is at place `k` among the set bits. -/
theorem Tidy.select_eq {b : Bitmap} (h : b.Tidy) (k : Nat) : b.select k = b.ones[k]? := by
  have hbits : (fun i => (b.words.toList[i / 64]?.getD 0#64).getLsbD (i % 64)) = b.bit := by
    funext i
    rw [Array.getElem?_toList]
    rfl
  have hget : b.get = b.bit := funext h.get_eq
  obtain ⟨past, hsplit, hpast⟩ := h.range_words
  have hsame : (0 + · : Nat → Nat) = id := funext Nat.zero_add
  rw [select, selectFrom_eq, hbits, Array.length_toList, hsplit, List.filter_append,
    List.filter_eq_nil_iff.mpr hpast, List.append_nil, hsame, Option.map_id, ones, hget]
  rfl

end Bitmap

end ColumnFile
