import ColumnFile.Proofs.Bitmap.Word

/-! # Bitmaps as lists of bits

No call on a bitmap leaves a bit behind its end or a word too many or too few, so a bitmap is known
by its bits: it is the bitmap of the list of them, and each call on it is a plain change of that
list.

* **`Bitmap.Tidy.ext`**, **`Bitmap.Tidy.eq_ofList`** — a tidy bitmap is known by its bits.
* **`Bitmap.bit_write`**, **`Bitmap.bit_combine`** — what a call does to the bits.
* **`Bitmap.tidy_ofList`**, **`Bitmap.get_ofList`** — the bitmap of a list.
* **`Bitmap.push_ofList`**, **`Bitmap.extend_ofList`**, **`Bitmap.set_ofList`**,
  **`Bitmap.combine_ofList`** — growth, change and combination in that view. -/

namespace ColumnFile

namespace Bitmap

/-! ## (1) Bits and words -/

/-- A bitmap reads the bit of its words at every place inside. -/
theorem get_eq (b : Bitmap) (i : Nat) : b.get i = (decide (i < b.len) && b.bit i) := by
  rw [get, Word.and_single_ne_zero]
  rfl

/-- Bits without a word are zero. -/
theorem bit_eq_false {b : Bitmap} {i : Nat} (h : b.words.size ≤ i / 64) : b.bit i = false := by
  rw [bit, word, Array.getElem?_eq_none h, Option.getD_none, BitVec.getLsbD_zero]

/-- The bits of a word lie in a row. -/
theorem bit_add (b : Bitmap) (k : Nat) {j : Nat} (hj : j < 64) :
    b.bit (64 * k + j) = (b.word k).getLsbD j := by
  have hdiv : (64 * k + j) / 64 = k := by omega
  have hmod : (64 * k + j) % 64 = j := by omega
  rw [bit, hdiv, hmod]

/-- Words of the same size with the same bits are the same. -/
theorem words_ext {a b : Bitmap} (hsize : a.words.size = b.words.size)
    (h : ∀ i, a.bit i = b.bit i) :
    a.words = b.words := by
  refine Array.ext hsize fun k ha hb => Word.ext fun j hj => ?_
  have hbit := h (64 * k + j)
  rwa [bit_add a k hj, bit_add b k hj, word, word, Array.getElem?_eq_getElem ha,
    Array.getElem?_eq_getElem hb, Option.getD_some, Option.getD_some] at hbit

namespace Tidy

variable {a b : Bitmap}

/-- A tidy bitmap reads the bit of its words at every place. -/
theorem get_eq (h : b.Tidy) (i : Nat) : b.get i = b.bit i := by
  rw [Bitmap.get_eq]
  by_cases hi : i < b.len
  · rw [decide_eq_true hi, Bool.true_and]
  · rw [decide_eq_false hi, Bool.false_and, h.clean i (Nat.not_lt.mp hi)]

/-- There is a word for every bit inside. -/
theorem lt_size (h : b.Tidy) {i : Nat} (hi : i < b.len) : i / 64 < b.words.size := by
  rw [h.size_words, wordsFor]
  omega

/-- **A tidy bitmap** is known by its bits. -/
theorem ext (ha : a.Tidy) (hb : b.Tidy) (hlen : a.len = b.len)
    (h : ∀ i < a.len, a.bit i = b.bit i) :
    a = b := by
  have hwords : a.words = b.words := by
    refine words_ext (by rw [ha.size_words, hb.size_words, hlen]) fun i => ?_
    by_cases hi : i < a.len
    · exact h i hi
    · rw [ha.clean i (Nat.not_lt.mp hi), hb.clean i (hlen ▸ Nat.not_lt.mp hi)]
  obtain ⟨awords, alen⟩ := a
  obtain ⟨bwords, blen⟩ := b
  cases hwords
  cases hlen
  rfl

end Tidy

/-- The empty bitmap is tidy. -/
theorem tidy_empty : empty.Tidy where
  size_words := rfl
  clean _ _ := bit_eq_false (Nat.zero_le _)

/-! ## (2) Growth and change of bits -/

/-- **A word that is changed** changes the bits it holds. -/
theorem bit_modify (b : Bitmap) {k : Nat} (hk : k < b.words.size) (f : Word → Word) (len i : Nat) :
    ({ words := b.words.modify k f, len } : Bitmap).bit i =
      if i / 64 = k then (f (b.word k)).getLsbD (i % 64) else b.bit i := by
  show ((b.words.modify k f)[i / 64]?.getD 0#64).getLsbD (i % 64) = _
  rw [Array.getElem?_modify]
  by_cases h : i / 64 = k
  · have hword : b.words[k]? = some b.words[k] := Array.getElem?_eq_getElem hk
    rw [if_pos h.symm, if_pos h, h, word, hword]
    rfl
  · rw [if_neg (Ne.symm h), if_neg h]
    rfl

/-- **A bit that is written** is there; the others stay. -/
theorem bit_write {b : Bitmap} {i : Nat} (hi : i / 64 < b.words.size) (val : Bool) (j : Nat) :
    (b.write i val).bit j = if j = i then val else b.bit j := by
  rw [write, bit_modify b hi, Word.getLsbD_write _ _ _ (Nat.mod_lt j (by decide))]
  by_cases hword : j / 64 = i / 64
  · by_cases hbit : j % 64 = i % 64
    · have hji : j = i := by omega
      rw [if_pos hword, if_pos hbit, if_pos hji]
    · have hji : j ≠ i := fun h => hbit (h ▸ rfl)
      rw [if_pos hword, if_neg hbit, if_neg hji, bit, hword]
  · have hji : j ≠ i := fun h => hword (h ▸ rfl)
    rw [if_neg hword, if_neg hji]

/-- A bit that is written leaves a bitmap tidy. -/
theorem tidy_write {b : Bitmap} (h : b.Tidy) {i : Nat} (hi : i < b.len) (val : Bool) :
    (b.write i val).Tidy where
  size_words := by
    show (b.words.modify _ _).size = _
    rw [Array.size_modify, h.size_words]
    rfl
  clean j hj := by
    have hji : j ≠ i := by
      rw [len_write] at hj
      omega
    rw [bit_write (h.lt_size hi), if_neg hji, h.clean j hj]

/-- **Zeros behind the end** change no bit. -/
theorem bit_extend_false (b : Bitmap) (n i : Nat) : (b.extend n false).bit i = b.bit i := by
  show ((b.words.rightpad _ 0#64)[i / 64]?.getD 0#64).getLsbD (i % 64) = _
  rw [Array.rightpad, Array.getElem?_append]
  by_cases hi : i / 64 < b.words.size
  · rw [if_pos hi]
    rfl
  · rw [if_neg hi, bit_eq_false (Nat.not_lt.mp hi), Array.getElem?_replicate]
    split
    · exact BitVec.getLsbD_zero
    · exact BitVec.getLsbD_zero

@[simp] theorem len_extend_false (b : Bitmap) (n : Nat) : (b.extend n false).len = b.len + n := rfl

/-- Bits that are not set leave a bitmap tidy. -/
theorem tidy_extend_false {b : Bitmap} (h : b.Tidy) (n : Nat) : (b.extend n false).Tidy where
  size_words := by
    show (b.words.rightpad _ _).size = _
    rw [Array.size_rightpad, h.size_words, len_extend_false, wordsFor, wordsFor]
    omega
  clean i hi := by
    rw [len_extend_false] at hi
    rw [bit_extend_false, h.clean i (by omega)]

/-- The words of one more bit are those that the bits take. -/
theorem words_push {b : Bitmap} (h : b.Tidy) :
    (if b.words.size ≤ b.len / 64 then b.words.push 0#64 else b.words) =
      b.words.rightpad (wordsFor (b.len + 1)) 0#64 := by
  rw [Array.rightpad, h.size_words, wordsFor, wordsFor]
  by_cases hfull : (b.len + 63) / 64 ≤ b.len / 64
  · have hone : (b.len + 1 + 63) / 64 - (b.len + 63) / 64 = 1 := by omega
    rw [if_pos hfull, hone]
    rfl
  · have hnone : (b.len + 1 + 63) / 64 - (b.len + 63) / 64 = 0 := by omega
    rw [if_neg hfull, hnone, Array.replicate_zero, Array.append_empty]

/-- **One more bit** is a zero behind the end that is written over. -/
theorem push_eq {b : Bitmap} (h : b.Tidy) (val : Bool) :
    b.push val = (b.extend 1 false).write b.len val := by
  rw [push, words_push h]
  rfl

/-- One more bit leaves a bitmap tidy. -/
theorem tidy_push {b : Bitmap} (h : b.Tidy) (val : Bool) : (b.push val).Tidy := by
  rw [push_eq h]
  exact tidy_write (tidy_extend_false h 1) (Nat.lt_succ_self b.len) val

/-- **One more bit** is behind the others. -/
theorem bit_push {b : Bitmap} (h : b.Tidy) (val : Bool) (i : Nat) :
    (b.push val).bit i = if i = b.len then val else b.bit i := by
  have hroom : b.len / 64 < (b.extend 1 false).words.size :=
    (tidy_extend_false h 1).lt_size (Nat.lt_succ_self b.len)
  rw [push_eq h, bit_write hroom, bit_extend_false]

/-- A bitmap grows up to the bit that is set. -/
theorem len_set (b : Bitmap) (i : Nat) (val : Bool) : (b.set i val).len = max b.len (i + 1) := by
  rw [set, len_write]
  split
  · omega
  · rw [len_extend_false]
    omega

/-- What a bit is written into reaches the bit. -/
theorem set_room {b : Bitmap} (h : b.Tidy) (i : Nat) :
    (if i < b.len then b else b.extend (i + 1 - b.len) false).Tidy ∧
      i < (if i < b.len then b else b.extend (i + 1 - b.len) false).len := by
  by_cases hi : i < b.len
  · rw [if_pos hi]
    exact ⟨h, hi⟩
  · rw [if_neg hi]
    refine ⟨tidy_extend_false h _, ?_⟩
    rw [len_extend_false]
    omega

/-- A bit that is set leaves a bitmap tidy. -/
theorem tidy_set {b : Bitmap} (h : b.Tidy) (i : Nat) (val : Bool) : (b.set i val).Tidy :=
  tidy_write (set_room h i).1 (set_room h i).2 val

/-- **A bit that is set** is as it was set, and the others as they were. -/
theorem bit_set {b : Bitmap} (h : b.Tidy) (i : Nat) (val : Bool) (j : Nat) :
    (b.set i val).bit j = if j = i then val else b.bit j := by
  have hsame : (if i < b.len then b else b.extend (i + 1 - b.len) false).bit j = b.bit j := by
    split
    · rfl
    · exact bit_extend_false b _ j
  rw [set, bit_write ((set_room h i).1.lt_size (set_room h i).2), hsame]

/-- A bitmap that was cleared has no bits. -/
theorem bit_clear (b : Bitmap) (i : Nat) : b.clear.bit i = false := by
  show ((b.words.map fun _ => 0#64)[i / 64]?.getD 0#64).getLsbD (i % 64) = false
  rw [Array.getElem?_map]
  cases b.words[i / 64]? <;> exact BitVec.getLsbD_zero

/-- A bitmap that was cleared is tidy. -/
theorem tidy_clear {b : Bitmap} (h : b.Tidy) : b.clear.Tidy where
  size_words := by
    show (b.words.map _).size = _
    rw [Array.size_map, h.size_words]
    rfl
  clean i _ := bit_clear b i

/-! ## (3) Combination of bits -/

/-- **Words that are combined bit by bit** are combined in every bit for which there is a word. -/
theorem bit_combine {f : Word → Word → Word} {g : Bool → Bool → Bool}
    (hfg : ∀ w v : Word, ∀ j < 64, (f w v).getLsbD j = g (w.getLsbD j) (v.getLsbD j)) (a b : Bitmap)
    {i : Nat} (hi : i / 64 < a.words.size) : (combine f a b).bit i = g (a.bit i) (b.bit i) := by
  show ((a.words.mapIdx fun k w => f w (b.word k))[i / 64]?.getD 0#64).getLsbD (i % 64) = _
  rw [Array.getElem?_mapIdx, Array.getElem?_eq_getElem hi, Option.map_some, Option.getD_some,
    hfg _ _ _ (Nat.mod_lt i (by decide)), bit, bit, word.eq_def a, Array.getElem?_eq_getElem hi,
    Option.getD_some]

/-- **A bitmap stays tidy** when it is combined with another, if no bits come up behind its end. -/
theorem tidy_combine {f : Word → Word → Word} {g : Bool → Bool → Bool}
    (hfg : ∀ w v : Word, ∀ j < 64, (f w v).getLsbD j = g (w.getLsbD j) (v.getLsbD j)) {a b : Bitmap}
    (h : a.Tidy) (hclean : ∀ i, a.len ≤ i → g false (b.bit i) = false) : (combine f a b).Tidy where
  size_words := by
    show (a.words.mapIdx _).size = _
    rw [Array.size_mapIdx, h.size_words]
    rfl
  clean i hi := by
    by_cases hroom : i / 64 < a.words.size
    · rw [bit_combine hfg a b hroom, h.clean i hi, hclean i hi]
    · refine bit_eq_false ?_
      show (a.words.mapIdx _).size ≤ _
      rw [Array.size_mapIdx]
      exact Nat.not_lt.mp hroom

/-! ## (4) The bitmap of a list -/

/-- **One more bit**, of a list. -/
theorem push_ofList (l : List Bool) (bit : Bool) : (ofList l).push bit = ofList (l ++ [bit]) := by
  rw [ofList, ofList, List.foldl_append]
  rfl

/-- Bits pushed one by one keep a bitmap tidy and come behind those that are there. -/
theorem foldl_push (l : List Bool) {b : Bitmap} (h : b.Tidy) :
    (l.foldl push b).Tidy ∧ (l.foldl push b).len = b.len + l.length ∧
      ∀ i, (l.foldl push b).bit i = if i < b.len then b.bit i else l[i - b.len]?.getD false := by
  induction l generalizing b with
  | nil =>
      refine ⟨h, rfl, fun i => ?_⟩
      by_cases hi : i < b.len
      · rw [if_pos hi]
        rfl
      · rw [if_neg hi]
        exact h.clean i (Nat.not_lt.mp hi)
  | cons bit l ih =>
      obtain ⟨htidy, hlen, hbits⟩ := ih (tidy_push h bit)
      refine ⟨htidy, ?_, fun i => ?_⟩
      · rw [List.foldl_cons, hlen, len_push, List.length_cons]
        omega
      · rw [List.foldl_cons, hbits, len_push, bit_push h]
        by_cases hi : i < b.len
        · rw [if_pos (by omega), if_neg (by omega), if_pos hi]
        · by_cases hend : i = b.len
          · rw [if_pos (by omega), if_pos hend, if_neg hi, hend, Nat.sub_self,
              List.getElem?_cons_zero, Option.getD_some]
          · have hrest : i - b.len = i - (b.len + 1) + 1 := by omega
            rw [if_neg (by omega), if_neg hi, hrest, List.getElem?_cons_succ]

/-- **The bitmap of a list** is tidy. -/
theorem tidy_ofList (l : List Bool) : (ofList l).Tidy := (foldl_push l tidy_empty).1

@[simp] theorem len_ofList (l : List Bool) : (ofList l).len = l.length :=
  (foldl_push l tidy_empty).2.1.trans (Nat.zero_add _)

/-- **The bits of the words of the bitmap of a list** are the members of the list; past its end they
are zero. -/
theorem bit_ofList (l : List Bool) (i : Nat) : (ofList l).bit i = l[i]?.getD false :=
  (foldl_push l tidy_empty).2.2 i

/-- **The bits of the bitmap of a list** are the members of the list; past its end they are zero. -/
theorem get_ofList (l : List Bool) (i : Nat) : (ofList l).get i = l[i]?.getD false := by
  rw [(tidy_ofList l).get_eq, bit_ofList]

/-- **The bitmap of a list** has the members of the list as its bits. -/
theorem toList_ofList (l : List Bool) : (ofList l).toList = l := by
  apply List.ext_getElem
  · rw [length_toList, len_ofList]
  · intro i h₁ h₂
    have hget : (ofList l).toList[i] = (ofList l).get i := by simp [toList]
    rw [hget, get_ofList, List.getElem?_eq_getElem h₂, Option.getD_some]

/-- **Bitmaps are the same** when their lists are. -/
theorem ofList_inj {l m : List Bool} : ofList l = ofList m ↔ l = m := by
  refine ⟨fun h => ?_, fun h => by rw [h]⟩
  rw [← toList_ofList l, h, toList_ofList]

/-- **A tidy bitmap** is the bitmap of any list of its bits. -/
theorem Tidy.eq_ofList {b : Bitmap} {l : List Bool} (h : b.Tidy) (hlen : b.len = l.length)
    (hbit : ∀ i < l.length, b.bit i = l[i]?.getD false) : b = ofList l := by
  refine h.ext (tidy_ofList l) (hlen.trans (len_ofList l).symm) fun i hi => ?_
  rw [bit_ofList, hbit i (hlen ▸ hi)]

/-- **Bits of one value at the end** are a list of that value behind the others. -/
theorem extend_ofList (l : List Bool) (n : Nat) (val : Bool) :
    (ofList l).extend n val = ofList (l ++ List.replicate n val) := by
  cases val with
  | true =>
      show Nat.repeat (push · true) n (ofList l) = _
      induction n with
      | zero => rw [List.replicate_zero, List.append_nil, Nat.repeat]
      | succ n ih => rw [Nat.repeat, ih, push_ofList, List.replicate_succ', List.append_assoc]
  | false =>
      refine (tidy_extend_false (tidy_ofList l) n).eq_ofList ?_ fun i hi => ?_
      · rw [len_extend_false, len_ofList, List.length_append, List.length_replicate]
      · rw [bit_extend_false, bit_ofList, List.getElem?_append]
        by_cases hold : i < l.length
        · rw [if_pos hold]
        · rw [if_neg hold, List.getElem?_eq_none (Nat.not_lt.mp hold), List.getElem?_replicate]
          split <;> rfl

/-- **Bits of one value** are a list of that value. -/
theorem filled_eq (n : Nat) (bit : Bool) : filled n bit = ofList (List.replicate n bit) :=
  extend_ofList [] n bit

/-- **A bit that is written** is the member of the list at its place; a list that does not reach it
is filled up with zeros first. -/
theorem set_ofList (l : List Bool) (i : Nat) (val : Bool) :
    (ofList l).set i val = ofList ((l.rightpad (i + 1) false).set i val) := by
  refine (tidy_set (tidy_ofList l) i val).eq_ofList ?_ fun j hj => ?_
  · rw [len_set, len_ofList, List.length_set, List.length_rightpad, Nat.max_comm]
  · rw [List.length_set, List.length_rightpad] at hj
    rw [bit_set (tidy_ofList l), bit_ofList, List.getElem?_set]
    by_cases hji : j = i
    · have hroom : i < (l.rightpad (i + 1) false).length := by
        rw [List.length_rightpad]
        omega
      rw [if_pos hji, if_pos hji.symm, if_pos hroom, Option.getD_some]
    · rw [if_neg hji, if_neg (Ne.symm hji), List.rightpad, List.getElem?_append]
      by_cases hold : j < l.length
      · rw [if_pos hold]
      · rw [if_neg hold, List.getElem?_eq_none (Nat.not_lt.mp hold), List.getElem?_replicate]
        split <;> rfl

/-- **A bitmap that is zeroed** is a list of zeros of the same length. -/
theorem clear_ofList (l : List Bool) :
    (ofList l).clear = ofList (List.replicate l.length false) := by
  refine (tidy_clear (tidy_ofList l)).eq_ofList ?_ fun i hi => ?_
  · rw [List.length_replicate]
    exact len_ofList l
  · rw [List.length_replicate] at hi
    rw [bit_clear, List.getElem?_replicate, if_pos hi, Option.getD_some]

/-- The members of a list combined with those of another at their places; past the end of the other
they are combined with zeros. -/
def mix (g : Bool → Bool → Bool) (l m : List Bool) : List Bool :=
  l.mapIdx fun i bit => g bit (m[i]?.getD false)

@[simp] theorem length_mix (g : Bool → Bool → Bool) (l m : List Bool) :
    (mix g l m).length = l.length :=
  List.length_mapIdx

/-- **Bitmaps combined bit by bit** are lists combined member by member. -/
theorem combine_ofList {f : Word → Word → Word} {g : Bool → Bool → Bool}
    (hfg : ∀ w v : Word, ∀ j < 64, (f w v).getLsbD j = g (w.getLsbD j) (v.getLsbD j))
    {l m : List Bool} (hclean : ∀ i, l.length ≤ i → g false (m[i]?.getD false) = false) :
    combine f (ofList l) (ofList m) = ofList (mix g l m) := by
  have htidy : (combine f (ofList l) (ofList m)).Tidy := by
    refine tidy_combine hfg (tidy_ofList l) fun i hi => ?_
    rw [bit_ofList]
    exact hclean i (len_ofList l ▸ hi)
  refine htidy.eq_ofList ?_ fun i hi => ?_
  · rw [len_combine, len_ofList, mix, List.length_mapIdx]
  · have hi : i < l.length := by rwa [mix, List.length_mapIdx] at hi
    have hroom : i / 64 < (ofList l).words.size := (tidy_ofList l).lt_size (by rwa [len_ofList])
    rw [bit_combine hfg _ _ hroom, bit_ofList, bit_ofList, mix, List.getElem?_mapIdx,
      List.getElem?_eq_getElem hi]
    rfl

/-- **The bits set in either** of two bitmaps. -/
theorem union_ofList (l m : List Bool) :
    (ofList l).union (ofList m) = ofList (mix (· || ·) (l.rightpad m.length false) m) := by
  have hgrown : (if (ofList l).len < (ofList m).len
      then (ofList l).extend ((ofList m).len - (ofList l).len) false else ofList l) =
      ofList (l.rightpad m.length false) := by
    rw [len_ofList, len_ofList, List.rightpad]
    by_cases hlt : l.length < m.length
    · rw [if_pos hlt, extend_ofList]
    · have hnone : m.length - l.length = 0 := by omega
      rw [if_neg hlt, hnone, List.replicate_zero, List.append_nil]
  rw [union, hgrown]
  refine combine_ofList (fun w v j _ => BitVec.getLsbD_or) fun i hi => ?_
  rw [List.length_rightpad] at hi
  rw [List.getElem?_eq_none (by omega)]
  rfl

/-- **The bits set in both** of two bitmaps. -/
theorem intersect_ofList (l m : List Bool) :
    (ofList l).intersect (ofList m) = ofList (mix (· && ·) l m) :=
  combine_ofList (fun _ _ _ _ => BitVec.getLsbD_and) fun _ _ => Bool.false_and _

/-- **The bits set in the first** of two bitmaps and not in the second. -/
theorem subtract_ofList (l m : List Bool) :
    (ofList l).subtract (ofList m) = ofList (mix (fun bit out => bit && !out) l m) := by
  refine combine_ofList (fun w v j hj => ?_) fun _ _ => Bool.false_and _
  rw [BitVec.getLsbD_and, BitVec.getLsbD_not, decide_eq_true hj, Bool.true_and]

end Bitmap

end ColumnFile
