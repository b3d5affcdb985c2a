import ColumnFile.Bitmap.Machine
import ColumnFile.Proofs.Bitmap.Packed
import ColumnFile.Proofs.Bitmap.Count
import ColumnFile.Proofs.Machine
import Mathlib.Data.List.Induction

/-! # Bitmaps stand for lists of bits

However a bitmap comes about — empty, with bits of one value, from packed octets, or by any calls on
bitmaps that came about so — it stands for the list of bits that the calls describe, and whatever is
asked of it is answered as the list answers it. Positions and counts may be any words. A call that
names one for which the length, or the place behind the position, is no word stops the program, and
nothing else does.

* **`Machine.setBit_ofList`**, **`Machine.extendBits_ofList`**, **`Machine.rankOf_ofList`** and the
  others — a call on the bitmap of a list, and when it goes through.
* **`Bitmap.Made b l`** — the calls that made `b` describe the list `l`.
* **`Bitmap.Refines b l`** — every answer of `b` is that of `l`; **`Bitmap.Grows b l`** — so is
  every call.
* **`Bitmap.made_refines`** — a bitmap that was made refines its list. -/

namespace ColumnFile

/-! ## (1) Calls on a machine -/

namespace Machine

open Bitmap (ofList mix)

variable {b : Bitmap} {l m : List Bool} {i n start stop : Nat} {val : Bool}

/-- A bit of words that are there is written. -/
theorem writeBit_eq (h : i / 64 < b.words.size) : writeBit b i val = .ok (b.write i val) := by
  rw [writeBit, element_eq h]
  rfl

/-- **Bits are read** inside of the words that are there. -/
theorem lookAt_ofList (l : List Bool) (i : Nat) : lookAt (ofList l) i = .ok (l[i]?.getD false) := by
  have hget := Bitmap.get_ofList l i
  rw [Bitmap.get] at hget
  rw [lookAt]
  by_cases hi : i < (ofList l).len
  · have hsize := (Bitmap.tidy_ofList l).lt_size hi
    rw [decide_eq_true hi, Bool.true_and, Bitmap.word, Array.getElem?_eq_getElem hsize,
      Option.getD_some] at hget
    rw [if_pos hi, element_eq hsize, ← hget]
    rfl
  · rw [decide_eq_false hi, Bool.false_and] at hget
    rw [if_neg hi, ← hget]

/-- **Zeros are added** if the length remains a word. The words for them can always be asked for. -/
theorem addZeros_ofList (l : List Bool) (n : Nat) :
    addZeros (ofList l) n =
      if l.length + n < UInt64.size then .ok (ofList (l ++ List.replicate n false))
      else .error (.trap .overflow) := by
  rw [addZeros, Bitmap.len_ofList]
  by_cases hword : l.length + n < UInt64.size
  · have hmemory : 8 * Bitmap.wordsFor (l.length + n) ≤ limit := by
      unfold Bitmap.wordsFor limit
      unfold UInt64.size at *
      omega
    rw [if_pos hword, add_eq hword, ok_bind, allocate_eq hmemory, ← Bitmap.extend_ofList,
      Bitmap.extend, Bitmap.len_ofList]
    rfl
  · rw [if_neg hword, add_overflow (Nat.not_lt.mp hword)]
    rfl

/-- **A bit is written** if the place behind it is a word, also past the end. -/
theorem setBit_ofList (hl : l.length < UInt64.size) (i : Nat) (val : Bool) :
    setBit (ofList l) i val =
      if i + 1 < UInt64.size then .ok (ofList ((l.rightpad (i + 1) false).set i val))
      else .error (.trap .overflow) := by
  have htidy := Bitmap.tidy_ofList l
  rw [← Bitmap.set_ofList, setBit, Bitmap.set]
  by_cases hi : i < (ofList l).len
  · have hword : i + 1 < UInt64.size := by
      rw [Bitmap.len_ofList] at hi
      omega
    rw [if_pos hi, if_pos hword, if_pos hi, writeBit_eq (htidy.lt_size hi)]
  · rw [if_neg hi, if_neg hi]
    by_cases hword : i + 1 < UInt64.size
    · rw [Bitmap.len_ofList] at hi
      have hsum : l.length + (i + 1 - l.length) < UInt64.size := by omega
      have hroom := (Bitmap.tidy_ofList (l ++ List.replicate (i + 1 - l.length) false)).lt_size
        (i := i) (by rw [Bitmap.len_ofList, List.length_append, List.length_replicate]; omega)
      rw [if_pos hword, add_eq hword, ok_bind, Bitmap.len_ofList, sub_eq (by omega), ok_bind,
        addZeros_ofList, if_pos hsum, ok_bind, writeBit_eq hroom, Bitmap.extend_ofList]
    · rw [if_neg hword, add_overflow (Nat.not_lt.mp hword)]
      rfl

/-- **A bit is added** if the length remains a word. -/
theorem pushBit_ofList (l : List Bool) (val : Bool) :
    pushBit (ofList l) val =
      if l.length + 1 < UInt64.size then .ok (ofList (l ++ [val]))
      else .error (.trap .overflow) := by
  have htidy := Bitmap.tidy_ofList l
  have hroom : (ofList l).len / 64 < ((ofList l).extend 1 false).words.size :=
    (Bitmap.tidy_extend_false htidy 1).lt_size (Nat.lt_succ_self _)
  rw [← Bitmap.push_ofList, Bitmap.push_eq htidy, pushBit, Bitmap.words_push htidy,
    Bitmap.len_ofList]
  by_cases hword : l.length + 1 < UInt64.size
  · rw [Bitmap.len_ofList] at hroom
    rw [if_pos hword, add_eq hword, ok_bind, setBit, if_pos (Nat.lt_succ_self _),
      ← writeBit_eq hroom, Bitmap.extend, Bitmap.len_ofList]
  · rw [if_neg hword, add_overflow (Nat.not_lt.mp hword)]
    rfl

/-- **Ones are added one by one** if the length remains a word. By induction on their number. -/
theorem pushOnes_ofList (hl : l.length < UInt64.size) (n : Nat) :
    pushOnes n (ofList l) =
      if l.length + n < UInt64.size then .ok (ofList (l ++ List.replicate n true))
      else .error (.trap .overflow) := by
  induction n generalizing l with
  | zero =>
      rw [Nat.add_zero, if_pos hl, List.replicate_zero, List.append_nil]
      rfl
  | succ n ih =>
      rw [pushOnes, pushBit_ofList]
      by_cases hone : l.length + 1 < UInt64.size
      · have hlength : (l ++ [true]).length = l.length + 1 := List.length_append
        rw [if_pos hone, ok_bind, ih (hlength ▸ hone), hlength, List.append_assoc,
          List.singleton_append, ← List.replicate_succ, Nat.add_assoc, Nat.add_comm 1 n]
      · rw [if_neg hone, if_neg (by omega)]
        rfl

/-- **Bits of one value are added** if the length remains a word. -/
theorem extendBits_ofList (hl : l.length < UInt64.size) (n : Nat) (val : Bool) :
    extendBits (ofList l) n val =
      if l.length + n < UInt64.size then .ok (ofList (l ++ List.replicate n val))
      else .error (.trap .overflow) := by
  cases val with
  | false => exact addZeros_ofList l n
  | true => exact pushOnes_ofList hl n

/-- **Bits are united** with those of any other bitmap. -/
theorem unite_ofList (hm : m.length < UInt64.size) :
    unite (ofList l) (ofList m) = .ok (ofList (mix (· || ·) (l.rightpad m.length false) m)) := by
  rw [← Bitmap.union_ofList, unite, Bitmap.union]
  by_cases hlen : (ofList l).len < (ofList m).len
  · have hsum : l.length + ((ofList m).len - (ofList l).len) < UInt64.size := by
      rw [Bitmap.len_ofList, Bitmap.len_ofList] at hlen ⊢
      omega
    rw [if_pos hlen, if_pos hlen, sub_eq (Nat.le_of_lt hlen), ok_bind, addZeros_ofList, if_pos hsum,
      Bitmap.extend_ofList]
    rfl
  · rw [if_neg hlen, if_neg hlen]

/-- **Bits are counted** inside of the words that are there, whatever the bounds. -/
theorem countBits_ofList (hl : l.length < UInt64.size) (start stop : Nat) :
    countBits (ofList l) start stop = .ok (((l.take stop).drop start).countP id) := by
  have htidy := Bitmap.tidy_ofList l
  have hword : (ofList l).len < 2 ^ 64 := (Bitmap.len_ofList l).symm ▸ hl
  rw [← Bitmap.countRange_ofList, countBits, Bitmap.countRange]
  generalize ofList l = b at htidy hword
  dsimp only
  by_cases hnone : min start (min stop b.len) = min stop b.len
  · rw [if_pos hnone, if_pos hnone]
    rfl
  · have hfirst : min start (min stop b.len) / 64 < b.words.size := htidy.lt_size (by omega)
    have hlast : (min stop b.len - 1) / 64 < b.words.size := htidy.lt_size (by omega)
    have hlow : b.word (min start (min stop b.len) / 64) =
      b.words[min start (min stop b.len) / 64] := by
      rw [Bitmap.word, Array.getElem?_eq_getElem hfirst, Option.getD_some]
    have hhigh : b.word ((min stop b.len - 1) / 64) = b.words[(min stop b.len - 1) / 64] := by
      rw [Bitmap.word, Array.getElem?_eq_getElem hlast, Option.getD_some]
    rw [if_neg hnone, if_neg hnone, sub_eq (by omega), ok_bind, element_eq hfirst, ok_bind,
      hlow, hhigh]
    by_cases hsame : min start (min stop b.len) / 64 = (min stop b.len - 1) / 64
    · rw [if_pos hsame, if_pos hsame]
      rfl
    · rw [if_neg hsame, if_neg hsame, add_eq (by omega), ok_bind,
        within_eq (by omega) (Nat.le_of_lt hlast), ok_bind, element_eq hlast]
      rfl

/-- **The bits up to a position are counted** if the place behind it is a word. -/
theorem rankOf_ofList (hl : l.length < UInt64.size) (i : Nat) :
    rankOf (ofList l) i =
      if i + 1 < UInt64.size then .ok ((l.take (i + 1)).countP id)
      else .error (.trap .overflow) := by
  rw [rankOf]
  by_cases hword : i + 1 < UInt64.size
  · rw [if_pos hword, add_eq hword, ok_bind, countBits_ofList hl, List.drop_zero]
  · rw [if_neg hword, add_overflow (Nat.not_lt.mp hword)]
    rfl

end Machine

namespace Bitmap

/-! ## (2) Bitmaps made by calls -/

open Machine in
/-- **A bitmap that was made by calls** that went through, and the list of bits that the calls
describe. The operands of a call are bitmaps of any lengths that were made so themselves. -/
inductive Made : Bitmap → List Bool → Prop
  | empty : Made empty []
  | filled {n : Nat} {val : Bool} {b : Bitmap} (hcall : extendBits empty n val = .ok b) :
      Made b (List.replicate n val)
  | ofBytes {bs : Bytes} {len : Nat} {b : Bitmap} (hlen : len < UInt64.size)
      (h : ofBytes? bs len = some b) : Made b ((List.range len).map bs.bitAt)
  | push {b b' : Bitmap} {l : List Bool} {val : Bool} (h : Made b l)
      (hcall : pushBit b val = .ok b') : Made b' (l ++ [val])
  | extend {b b' : Bitmap} {l : List Bool} {n : Nat} {val : Bool} (h : Made b l)
      (hcall : extendBits b n val = .ok b') : Made b' (l ++ List.replicate n val)
  | set {b b' : Bitmap} {l : List Bool} {i : Nat} {val : Bool} (h : Made b l)
      (hcall : setBit b i val = .ok b') : Made b' ((l.rightpad (i + 1) false).set i val)
  | clear {b : Bitmap} {l : List Bool} (h : Made b l) : Made b.clear (List.replicate l.length false)
  | union {a b a' : Bitmap} {l m : List Bool} (ha : Made a l) (hb : Made b m)
      (hcall : unite a b = .ok a') : Made a' (mix (· || ·) (l.rightpad m.length false) m)
  | intersect {a b : Bitmap} {l m : List Bool} (ha : Made a l) (hb : Made b m) :
      Made (a.intersect b) (mix (· && ·) l m)
  | subtract {a b : Bitmap} {l m : List Bool} (ha : Made a l) (hb : Made b m) :
      Made (a.subtract b) (mix (fun bit out => bit && !out) l m)

/-- The empty bitmap is that of the empty list. -/
theorem ofList_nil : ofList [] = empty := rfl

/-- What comes of a call that goes through if something fits. -/
theorem of_guarded {fits : Prop} [Decidable fits] {b b' : Bitmap}
    (h : (if fits then .ok b else .error (.trap .overflow) : Except Stop Bitmap) = .ok b') :
    fits ∧ b' = b := by
  split at h
  · next hfits =>
      cases h
      exact ⟨hfits, rfl⟩
  · cases h

/-- **A bitmap that was made** is the bitmap of its list, whose length is a word. -/
theorem Made.eq_ofList {b : Bitmap} {l : List Bool} (h : Made b l) :
    b = ofList l ∧ l.length < UInt64.size := by
  -- the calls that go through are those of the list, whose length stays a word
  induction h with
  | empty => exact ⟨rfl, by decide⟩
  | filled hcall =>
      rw [← ofList_nil, Machine.extendBits_ofList (l := []) (by decide)] at hcall
      obtain ⟨hword, rfl⟩ := of_guarded hcall
      exact ⟨rfl, by rw [List.length_replicate]; simpa using hword⟩
  | @ofBytes bs len b hlen h =>
      rw [ofBytes?_eq] at h
      split at h
      · cases h
      · refine ⟨(Option.some.inj h).symm, ?_⟩
        rw [List.length_map, List.length_range]
        exact hlen
  | push _ hcall ih =>
      obtain ⟨rfl, -⟩ := ih
      rw [Machine.pushBit_ofList] at hcall
      obtain ⟨hword, rfl⟩ := of_guarded hcall
      exact ⟨rfl, by rwa [List.length_append]⟩
  | extend _ hcall ih =>
      obtain ⟨rfl, hl⟩ := ih
      rw [Machine.extendBits_ofList hl] at hcall
      obtain ⟨hword, rfl⟩ := of_guarded hcall
      exact ⟨rfl, by rwa [List.length_append, List.length_replicate]⟩
  | set _ hcall ih =>
      obtain ⟨rfl, hl⟩ := ih
      rw [Machine.setBit_ofList hl] at hcall
      obtain ⟨hword, rfl⟩ := of_guarded hcall
      refine ⟨rfl, ?_⟩
      rw [List.length_set, List.length_rightpad]
      exact max_lt hword hl
  | clear _ ih =>
      obtain ⟨rfl, hl⟩ := ih
      exact ⟨clear_ofList _, by rwa [List.length_replicate]⟩
  | union _ _ hcall iha ihb =>
      obtain ⟨rfl, hl⟩ := iha
      obtain ⟨rfl, hm⟩ := ihb
      rw [Machine.unite_ofList hm, Except.ok.injEq] at hcall
      exact ⟨hcall.symm, by rw [length_mix, List.length_rightpad]; exact max_lt hm hl⟩
  | intersect _ _ iha ihb =>
      obtain ⟨rfl, hl⟩ := iha
      obtain ⟨rfl, -⟩ := ihb
      exact ⟨intersect_ofList _ _, by rwa [length_mix]⟩
  | subtract _ _ iha ihb =>
      obtain ⟨rfl, hl⟩ := iha
      obtain ⟨rfl, -⟩ := ihb
      exact ⟨subtract_ofList _ _, by rwa [length_mix]⟩

/-- **The bitmap of a list** can be made, if the length of the list is a word. By induction on the
bits before the last. -/
theorem made_ofList {l : List Bool} (hl : l.length < UInt64.size) : Made (ofList l) l := by
  induction l using List.reverseRecOn with
  | nil => exact .empty
  | append_singleton l val ih =>
      rw [List.length_append] at hl
      exact .push (ih (Nat.lt_of_succ_lt hl)) ((Machine.pushBit_ofList l val).trans (if_pos hl))

/-! ## (3) Positions and counts of a list -/

/-- The positions at which a list has a set bit, in ascending order. -/
def setPlaces (l : List Bool) : List Nat :=
  (List.range l.length).filter fun i => l[i]?.getD false

/-- **The places of the ones** are those where the list says so. -/
theorem ones_ofList (l : List Bool) : (ofList l).ones = setPlaces l := by
  have hget : (ofList l).get = fun i => l[i]?.getD false := funext (get_ofList l)
  rw [ones, len_ofList, hget, setPlaces]

/-- **A set bit** is at the place that the count of set bits before it says. -/
theorem getElem?_setPlaces {l : List Bool} {i : Nat} (h : l[i]? = some true) :
    (setPlaces l)[(l.take i).countP id]? = some i := by
  have hi : i < l.length := (List.getElem?_eq_some_iff.mp h).1
  have hbefore : ((List.range i).filter fun i => l[i]?.getD false).length =
    (l.take i).countP id := by
    have hget : (ofList l).get = fun i => l[i]?.getD false := funext (get_ofList l)
    have hcount := countP_get_ofList l 0 i
    rw [Nat.sub_zero, ← List.range_eq_range', Nat.min_eq_left (Nat.le_of_lt hi), List.drop_zero,
      List.countP_eq_length_filter, hget] at hcount
    exact hcount
  have hone : List.range' i (i + 1 - i) = [i] := by rw [Nat.add_sub_cancel_left, List.range'_one]
  have hset : [i].filter (fun i => l[i]?.getD false) = [i] :=
    List.filter_cons_of_pos (by rw [h, Option.getD_some])
  rw [setPlaces, Word.range_split (Nat.le_succ i) hi, hone, List.filter_append,
    List.filter_append, hset,
    List.getElem?_append_left (by rw [List.length_append, hbefore]; exact Nat.lt_succ_self _),
    ← hbefore, List.getElem?_concat_length]

/-- No place is listed twice. -/
theorem nodup_setPlaces (l : List Bool) : (setPlaces l).Nodup :=
  List.Pairwise.filter _ List.nodup_range

/-- **What is at a place** is a set bit with that many set bits before it. -/
theorem of_getElem?_setPlaces {l : List Bool} {k i : Nat} (h : (setPlaces l)[k]? = some i) :
    l[i]? = some true ∧ (l.take i).countP id = k := by
  obtain ⟨hin, hbit⟩ := List.mem_filter.mp (List.mem_of_getElem? h)
  have hset : l[i]? = some true := by
    rw [List.getElem?_eq_getElem (List.mem_range.mp hin), Option.getD_some] at hbit
    rw [List.getElem?_eq_getElem (List.mem_range.mp hin), hbit]
  have hplace := getElem?_setPlaces hset
  refine ⟨hset, ?_⟩
  exact (List.getElem?_inj (List.getElem?_eq_some_iff.mp hplace).1 (nodup_setPlaces l)).mp
    (hplace.trans h.symm)

/-- One more bit that is set counts once more. -/
theorem countP_take_succ {l : List Bool} {i : Nat} (h : l[i]? = some true) :
    (l.take (i + 1)).countP id = (l.take i).countP id + 1 := by
  rw [List.take_add_one, h, List.countP_append]
  rfl

/-! ## (4) Answers -/

/-- **A bitmap refines a list of bits**: it holds them and nothing else, and it answers as they
do. -/
structure Refines (b : Bitmap) (l : List Bool) : Prop where
  /-- The bits are as many as the members. -/
  len : b.len = l.length
  /-- There are as many words as the bits take, and no bit is set past the end. -/
  tidy : b.Tidy
  /-- The bits in order are the members. -/
  toList : b.toList = l
  /-- A bit is the member at its place; past the end it is zero. -/
  get (i : Nat) : Machine.lookAt b i = .ok (l[i]?.getD false)
  /-- The set bits are counted. -/
  count : b.count = l.countP id
  /-- Some bit is set when some member is. -/
  any : b.any = l.any id
  /-- Every bit is set when every member is. -/
  isFull : b.isFull = l.all id
  /-- The set bits up to and including a position are counted, if the place behind it is a word. -/
  rank (i : Nat) : Machine.rankOf b i =
    if i + 1 < UInt64.size then .ok ((l.take (i + 1)).countP id) else .error (.trap .overflow)
  /-- The set bits between any two bounds are counted. -/
  countRange (start stop : Nat) :
    Machine.countBits b start stop = .ok (((l.take stop).drop start).countP id)
  /-- The positions of the set bits are found. -/
  ones : b.ones = setPlaces l
  /-- The set bit with `k` set bits before it is found. -/
  select (k : Nat) : b.select k = (setPlaces l)[k]?
  /-- A set bit is found by its rank. -/
  select_rank (i : Nat) : l[i]? = some true →
    ∃ k, Machine.rankOf b i = .ok (k + 1) ∧ b.select k = some i
  /-- What is found is a set bit of that rank. -/
  rank_select (k i : Nat) : b.select k = some i →
    l[i]? = some true ∧ Machine.rankOf b i = .ok (k + 1)
  /-- The packed form has as many octets as the members take. -/
  length_toBytes : b.toBytes.length = bytesFor l.length
  /-- The packed form has the members in order, and zeros up to the end of the last octet. -/
  toBytes (i : Nat) : b.toBytes.bitAt i = l[i]?.getD false
  /-- The packed form reads back. -/
  ofBytes : ofBytes? b.toBytes b.len = some b

/-- A set bit has as many set bits up to and including it as its rank says. -/
theorem rankOf_of_set {l : List Bool} (hl : l.length < UInt64.size) {i : Nat}
    (h : l[i]? = some true) :
    Machine.rankOf (ofList l) i = .ok ((l.take i).countP id + 1) := by
  have hi : i < l.length := (List.getElem?_eq_some_iff.mp h).1
  rw [Machine.rankOf_ofList hl, if_pos (Nat.lt_of_le_of_lt hi hl), countP_take_succ h]

/-- **The bitmap of a list** refines it, if its length is a word. -/
theorem refines_ofList {l : List Bool} (hl : l.length < UInt64.size) : Refines (ofList l) l where
  len := len_ofList l
  tidy := tidy_ofList l
  toList := toList_ofList l
  get := Machine.lookAt_ofList l
  count := count_ofList l
  any := any_ofList l
  isFull := by
    rw [isFull, count_ofList, len_ofList, Bool.eq_iff_iff, beq_iff_eq, List.countP_eq_length,
      List.all_eq_true]
  rank := Machine.rankOf_ofList hl
  countRange := Machine.countBits_ofList hl
  ones := ones_ofList l
  select k := by rw [(tidy_ofList l).select_eq, ones_ofList]
  select_rank i h := by
    refine ⟨_, rankOf_of_set hl h, ?_⟩
    rw [(tidy_ofList l).select_eq, ones_ofList, getElem?_setPlaces h]
  rank_select k i h := by
    rw [(tidy_ofList l).select_eq, ones_ofList] at h
    obtain ⟨hset, hk⟩ := of_getElem?_setPlaces h
    exact ⟨hset, by rw [rankOf_of_set hl hset, hk]⟩
  length_toBytes := by rw [(tidy_ofList l).length_toBytes, len_ofList]
  toBytes i := by rw [(tidy_ofList l).bitAt_toBytes, bit_ofList]
  ofBytes := ofBytes?_toBytes (tidy_ofList l)

/-! ## (5) Calls -/

/-- **A bitmap grows as a list of bits** does: a call gives the bitmap of the list that it
describes, or stops the program where the new length, or the place behind a position, is no word. -/
structure Grows (b : Bitmap) (l : List Bool) : Prop where
  /-- One more bit. -/
  push (val : Bool) : Machine.pushBit b val =
    if l.length + 1 < UInt64.size then .ok (ofList (l ++ [val])) else .error (.trap .overflow)
  /-- More bits of one value. -/
  extend (n : Nat) (val : Bool) : Machine.extendBits b n val =
    if l.length + n < UInt64.size then .ok (ofList (l ++ List.replicate n val))
    else .error (.trap .overflow)
  /-- A bit inside or past the end. -/
  set (i : Nat) (val : Bool) : Machine.setBit b i val =
    if i + 1 < UInt64.size then .ok (ofList ((l.rightpad (i + 1) false).set i val))
    else .error (.trap .overflow)
  /-- The bits of another bitmap as well. -/
  union {c : Bitmap} {m : List Bool} (hc : Made c m) :
    Machine.unite b c = .ok (ofList (mix (· || ·) (l.rightpad m.length false) m))

/-- **A bitmap made by any calls** stands for the list of bits that the calls describe: it refines
that list and grows as it does, it is equal to another such bitmap exactly when their lists are, and
packed octets make one exactly when there are enough of them. -/
theorem made_refines {b : Bitmap} {l : List Bool} (h : Made b l) :
    Refines b l ∧ Grows b l ∧
    (∀ {c : Bitmap} {m : List Bool}, Made c m → (b = c ↔ l = m)) ∧
    (∀ (bs : Bytes) (len : Nat), (ofBytes? bs len).isSome ↔ bytesFor len ≤ bs.length) := by
  obtain ⟨rfl, hl⟩ := h.eq_ofList
  refine ⟨refines_ofList hl, ?_, fun hc => ?_, fun bs len => ?_⟩
  · refine ⟨Machine.pushBit_ofList _, Machine.extendBits_ofList hl, Machine.setBit_ofList hl,
      fun hc => ?_⟩
    obtain ⟨rfl, hm⟩ := hc.eq_ofList
    exact Machine.unite_ofList hm
  · rw [hc.eq_ofList.1, ofList_inj]
  · rw [ofBytes?_eq]
    by_cases hshort : bs.length < bytesFor len
    · rw [if_pos hshort, Option.isSome_none]
      exact ⟨fun h => absurd h Bool.false_ne_true, fun h => absurd h (Nat.not_le.mpr hshort)⟩
    · rw [if_neg hshort, Option.isSome_some]
      exact ⟨fun _ => Nat.not_lt.mp hshort, fun _ => rfl⟩

/-- Bits over three words with those of a shorter bitmap taken out: the last of the six that are
left lies far behind the others. The place behind the last word is no word. -/
theorem made_refines_over_words :
    ∃ b, Made b (mix (fun bit out => bit && !out)
        (((List.replicate 70 true).rightpad 131 false).set 130 true) (List.replicate 65 true)) ∧
      b.len = 131 ∧ b.count = 6 ∧ Machine.rankOf b 69 = .ok 5 ∧ b.select 5 = some 130 ∧
      Machine.rankOf b (UInt64.size - 1) = .error (.trap .overflow) ∧
      Machine.setBit b (UInt64.size - 1) true = .error (.trap .overflow) ∧
      (ofBytes? b.toBytes 131).isSome := by
  obtain ⟨-, hgrows, -⟩ := made_refines .empty
  have hlong : Made _ (List.replicate 70 true) :=
    .filled ((hgrows.extend 70 true).trans (if_pos (by decide)))
  have hset := Made.set hlong (((made_refines hlong).2.1.set 130 true).trans (if_pos (by decide)))
  have hshort : Made _ (List.replicate 65 true) :=
    .filled ((hgrows.extend 65 true).trans (if_pos (by decide)))
  have hmade := Made.subtract hset hshort
  obtain ⟨hrefines, hcalls, -, hpacked⟩ := made_refines hmade
  refine ⟨_, hmade, hrefines.len.trans (by decide +kernel),
    hrefines.count.trans (by decide +kernel), (hrefines.rank 69).trans (by decide +kernel),
    (hrefines.select 5).trans (by decide +kernel), (hrefines.rank _).trans (if_neg (by decide)),
    (hcalls.set _ true).trans (if_neg (by decide)), (hpacked _ _).mpr ?_⟩
  rw [hrefines.length_toBytes]
  decide +kernel

end Bitmap

end ColumnFile
