import ColumnFile.Proofs.Column.Nulls

/-! # Null trackers answer for their marks

A tracker that is new, or that was made of decoded rows with or without a bitmap, and then grew row
by row, stands for a list of marks: one for each row, set when the row is not null. It counts the
rows, and finds its way between the rows and the values, as the marks say. Whether it has a bitmap
makes no difference to that.

* **`Nulls.Marked`** — null rows that are those of a list of marks, with or without a bitmap;
  `Marked.push` is growth.
* **`Nulls.Made`** — the trackers that calls lead to, with the marks that the calls describe.
* **`Nulls.Answers`** — every answer of a tracker is that of its marks; rows and places lead to each
  other.
* **`Nulls.made_answers`** — a tracker that was made answers for its marks. -/

namespace ColumnFile

namespace Nulls

variable {t t' : Nulls} {marks : List Bool} {k k' row row' : Nat}

/-! ## (1) Null rows of marks -/

/-- **Null rows are those of marks**: the tracker counts them, and finds its way as the marks say. A
bitmap has the marks as its bits. -/
structure Marked (t : Nulls) (marks : List Bool) : Prop where
  rows : t.rows = marks.length
  nonNull : t.nonNull = marks.countP id
  bitmap : ∀ b, t.bitmap = some b → b = Bitmap.ofList marks
  isNull : ∀ row, (h : row < marks.length) → t.isNull row = !marks[row]
  denseIndex : ∀ row ≤ marks.length, t.denseIndex row = (marks.take row).countP id
  rowOfDense : ∀ k, t.rowOfDense k = (places marks ++ [marks.length])[k]?

/-- Marks are kept as they are given. -/
theorem marked_ofMarks (marks : List Bool) : (ofMarks marks).Marked marks := by
  refine ⟨rfl, rfl, ?_, fun _ h => isNull_ofMarks h, fun _ h => denseIndex_ofMarks h,
    rowOfDense_ofMarks marks⟩
  intro b hb
  rw [ofMarks] at hb
  dsimp only at hb
  split at hb
  · cases hb
  · exact (Option.some.inj hb).symm

/-- Marks that are kept in a bitmap in any case. -/
theorem marked_ofBits (marks : List Bool) : (ofBits marks).Marked marks := by
  refine ⟨rfl, rfl, ?_, fun _ h => isNull_ofBits h, fun _ _ => denseIndex_ofBits marks _,
    rowOfDense_ofBits marks⟩
  intro b hb
  exact (Option.some.inj hb).symm

/-- The bitmap has a bit for each row and no other. -/
theorem Marked.tidy (h : t.Marked marks) {b : Bitmap} (hb : t.bitmap = some b) : b.Tidy ∧
    b.len = t.rows := by
  rw [h.bitmap b hb, h.rows]
  exact ⟨Bitmap.tidy_ofList marks, Bitmap.len_ofList marks⟩

/-- The row at a place is found for every value, and for the end. -/
theorem Marked.exists_row (h : t.Marked marks) (hk : k ≤ t.nonNull) :
    ∃ row, t.rowOfDense k = some row := by
  have hlt : k < (places marks ++ [marks.length]).length := by
    rw [List.length_append, length_places, List.length_singleton, ← h.nonNull]
    exact Nat.lt_succ_of_le hk
  exact ⟨_, (h.rowOfDense k).trans (List.getElem?_eq_getElem hlt)⟩

/-- **Later places** are in later rows, the end is behind all. -/
theorem pairwise_places (marks : List Bool) :
    (places marks ++ [marks.length]).Pairwise (· < ·) := by
  rw [places_eq, List.pairwise_append]
  refine ⟨List.pairwise_lt_range.filter _, List.pairwise_singleton _ _, ?_⟩
  intro row hrow last hlast
  rw [List.mem_singleton.mp hlast]
  exact List.mem_range.mp (List.mem_filter.mp hrow).1

/-- A later value is in a later row. -/
theorem Marked.row_lt_row (h : t.Marked marks) (hk : k < k') (hrow : t.rowOfDense k = some row)
    (hrow' : t.rowOfDense k' = some row') : row < row' := by
  rw [h.rowOfDense] at hrow hrow'
  obtain ⟨hlt, rfl⟩ := List.getElem?_eq_some_iff.mp hrow
  obtain ⟨hlt', rfl⟩ := List.getElem?_eq_some_iff.mp hrow'
  exact List.pairwise_iff_getElem.mp (pairwise_places marks) _ _ hlt hlt' hk

/-- A value that is not earlier is in a row that is not earlier. -/
theorem Marked.row_le_row (h : t.Marked marks) (hk : k ≤ k') (hrow : t.rowOfDense k = some row)
    (hrow' : t.rowOfDense k' = some row') : row ≤ row' := by
  rcases Nat.lt_or_eq_of_le hk with hlt | rfl
  · exact Nat.le_of_lt (h.row_lt_row hlt hrow hrow')
  · exact Nat.le_of_eq (Option.some.inj (hrow.symm.trans hrow'))

/-- Behind the last value is the end of the rows. -/
theorem rowOfDense_nonNull (t : Nulls) : t.rowOfDense t.nonNull = some t.rows := if_pos rfl

/-- **A row that is not null** has its place among the values. -/
theorem Marked.denseIndex_lt (h : t.Marked marks) (hrow : row < t.rows)
    (hnull : t.isNull row = false) :
    t.denseIndex row < t.nonNull := by
  rw [h.rows] at hrow
  rw [h.isNull row hrow, Bool.not_eq_false'] at hnull
  have hmark : marks[row]? = some true := by rw [List.getElem?_eq_getElem hrow, hnull]
  have hle := (List.take_sublist (row + 1) marks).countP_le (p := id)
  rw [Bitmap.countP_take_succ hmark] at hle
  rw [h.denseIndex row (Nat.le_of_lt hrow), h.nonNull]
  exact hle

/-- A tracker of marks has the bitmap of the marks, or none is null and it has no bitmap. -/
theorem Marked.eq_or_eq (h : t.Marked marks) : t = ofMarks marks ∨ t = ofBits marks := by
  obtain ⟨rows, nonNull, bitmap⟩ := t
  obtain rfl : rows = marks.length := h.rows
  obtain rfl : nonNull = marks.countP id := h.nonNull
  cases hbitmap : bitmap with
  | some b => exact .inr (by rw [h.bitmap b hbitmap, ofBits])
  | none =>
      subst hbitmap
      have hall : marks.all id = true := by
        rw [List.all_eq_true]
        intro mark hmark
        obtain ⟨row, hrow, rfl⟩ := List.getElem_of_mem hmark
        have hset : false = !marks[row] := h.isNull row hrow
        exact (Bool.not_eq_false' _).mp hset.symm
      exact .inl (by rw [ofMarks, if_pos hall])

/-- One more row is one more mark, in a bitmap in any case. -/
theorem push_ofBits (marks : List Bool) (notNull : Bool) :
    (ofBits marks).push notNull = ofBits (marks ++ [notNull]) := by
  have hcount : (marks ++ [notNull]).countP id = marks.countP id + notNull.toNat := by
    rw [List.countP_append]
    cases notNull <;> rfl
  rw [ofBits, ofBits, hcount, List.length_append, ← Bitmap.push_ofList]
  rfl

/-- **One more row** is one more mark. -/
theorem Marked.push (h : t.Marked marks) (notNull : Bool) :
    (t.push notNull).Marked (marks ++ [notNull]) := by
  rcases h.eq_or_eq with rfl | rfl
  · rw [push_ofMarks]
    exact marked_ofMarks _
  · rw [push_ofBits]
    exact marked_ofBits _

/-! ## (2) Trackers made by calls -/

/-- **A tracker that was made by calls**, and the marks that the calls describe: a new one, one of
decoded rows, and one with a row more. A bitmap that is taken over is that of any list, and all that
calls on bitmaps lead to are such. -/
inductive Made : Nulls → List Bool → Prop
  | empty : Made empty []
  | ofRows {rows : Nat} {t : Nulls} (h : ofBitmap rows none = .ok t) :
      Made t (List.replicate rows true)
  | ofBitmap {rows : Nat} {b : Bitmap} {l : List Bool} {t : Nulls} (hb : b = Bitmap.ofList l)
      (h : ofBitmap rows (some b) = .ok t) : Made t l
  | push {t : Nulls} {marks : List Bool} (notNull : Bool) (h : Made t marks) :
      Made (t.push notNull) (marks ++ [notNull])

/-- **Rows with a bitmap** are taken when it has a bit for each of them. -/
theorem ofBitmap_eq_ok_iff (rows : Nat) (bitmap : Option Bitmap) :
    (∃ t, ofBitmap rows bitmap = .ok t) ↔ ∀ b, bitmap = some b → b.len = rows := by
  cases bitmap with
  | none =>
      refine iff_of_true ⟨_, rfl⟩ ?_
      intro b hb
      cases hb
  | some b =>
      rw [ofBitmap]
      by_cases hlen : b.len = rows
      · rw [if_neg (not_not_intro hlen)]
        refine iff_of_true ⟨_, rfl⟩ ?_
        intro b' hb
        rw [← Option.some.inj hb, hlen]
      · rw [if_pos hlen]
        refine iff_of_false ?_ fun h => hlen (h b rfl)
        rintro ⟨t, ht⟩
        cases ht

/-- Rows without a bitmap are those of marks that are all set. -/
theorem marked_of_rows {rows : Nat} (h : ofBitmap rows none = .ok t) :
    t.Marked (List.replicate rows true) := by
  cases h
  have hmarked := marked_ofMarks (List.replicate rows true)
  have hall : (List.replicate rows true).all id = true := by simp
  rw [ofMarks, if_pos hall, List.length_replicate, List.countP_replicate] at hmarked
  exact hmarked

/-- Rows with the bitmap of a list are those of its marks. -/
theorem marked_of_bits {rows : Nat} (h : ofBitmap rows (some (Bitmap.ofList marks)) = .ok t) :
    t.Marked marks := by
  have hlen := (ofBitmap_eq_ok_iff rows _).mp ⟨t, h⟩ _ rfl
  rw [ofBitmap, if_neg (not_not_intro hlen)] at h
  cases h
  have hmarked := marked_ofBits marks
  rw [ofBits, ← Bitmap.count_ofList, ← Bitmap.len_ofList, hlen] at hmarked
  exact hmarked

/-- **A tracker that was made** is one of its marks, by induction on the calls. -/
theorem Made.marked (h : Made t marks) : t.Marked marks := by
  induction h with
  | empty => exact marked_ofMarks []
  | ofRows h => exact marked_of_rows h
  | @ofBitmap rows b l t hb h =>
      rw [hb] at h
      exact marked_of_bits h
  | push notNull _ ih => exact ih.push notNull

/-! ## (3) Answers -/

/-- **A tracker answers for marks**: it counts the rows and the values as they do, and rows that are
not null and places among the values lead to each other. -/
structure Answers (t : Nulls) (marks : List Bool) : Prop where
  /-- There is a mark for each row. -/
  rows : t.rows = marks.length
  /-- The rows that are not null are counted. -/
  nonNull : t.nonNull = marks.countP id
  /-- A row is null when its mark is not set. -/
  isNull (row : Nat) : row < t.rows → marks[row]? = some (!t.isNull row)
  /-- A bitmap has a bit for each row, which is set when the row is not null. -/
  bitmap (b : Bitmap) : t.bitmap = some b → b.len = t.rows ∧ b.count = t.nonNull ∧ b.toList = marks
  /-- Without a bitmap no row is null. -/
  noBitmap : t.bitmap = none → t.nonNull = t.rows
  /-- The place of a row, or of the end, is the count of the values before it. -/
  denseIndex (row : Nat) : row ≤ t.rows → t.denseIndex row = (marks.take row).countP id
  /-- The row at a place is not null and has that many values before it. -/
  rowOfDense (k : Nat) : k < t.nonNull →
    ∃ row, t.rowOfDense k = some row ∧ marks[row]? = some true ∧ (marks.take row).countP id = k
  /-- Behind the last place is the end. -/
  rowOfDense_end : t.rowOfDense t.nonNull = some t.rows
  /-- There is no place behind that. -/
  rowOfDense_beyond (k : Nat) : t.nonNull < k → t.rowOfDense k = none
  /-- A row that is not null is found by its place. -/
  rowOfDense_denseIndex (row : Nat) : marks[row]? = some true →
    t.denseIndex row < t.nonNull ∧ t.rowOfDense (t.denseIndex row) = some row
  /-- A place is that of the row which is found there. -/
  denseIndex_rowOfDense (k row : Nat) : k < t.nonNull → t.rowOfDense k = some row →
  t.denseIndex row = k

/-- The places of values are those of marks that are set. -/
theorem places_eq_setPlaces (marks : List Bool) : places marks = Bitmap.setPlaces marks :=
  Bitmap.ones_ofList marks

/-- The row at a place of a value is the place of a set mark. -/
theorem Marked.rowOfDense_of_lt (h : t.Marked marks) (hk : k < t.nonNull) :
    t.rowOfDense k = (Bitmap.setPlaces marks)[k]? := by
  rw [h.nonNull, ← length_places] at hk
  rw [h.rowOfDense, List.getElem?_append_left hk, places_eq_setPlaces]

/-- **There is a row at every place** of a value: one that is not null, with that many values before
it. -/
theorem Marked.exists_row_of_lt (h : t.Marked marks) (hk : k < t.nonNull) :
    ∃ row, t.rowOfDense k = some row ∧ marks[row]? = some true ∧
    (marks.take row).countP id = k := by
  obtain ⟨row, hrow⟩ := h.exists_row (Nat.le_of_lt hk)
  have hplace := hrow
  rw [h.rowOfDense_of_lt hk] at hplace
  exact ⟨row, hrow, Bitmap.of_getElem?_setPlaces hplace⟩

/-- **There is no place** behind the end. -/
theorem Marked.rowOfDense_eq_none (h : t.Marked marks) (hk : t.nonNull < k) :
    t.rowOfDense k = none := by
  rw [h.nonNull] at hk
  rw [h.rowOfDense, List.getElem?_eq_none]
  rw [List.length_append, length_places, List.length_singleton]
  exact hk

/-- Without a bitmap no row is null. -/
theorem Marked.nonNull_of_none (h : t.Marked marks) (hnone : t.bitmap = none) :
    t.nonNull = t.rows := by
  rcases h.eq_or_eq with rfl | rfl
  · have hle : marks.countP id ≤ marks.length := List.countP_le_length
    rcases Nat.lt_or_eq_of_le hle with hlt | heq
    · -- the first row that is null would have brought a bitmap
      rw [ofMarks, (lt_iff_not_all marks).mp hlt] at hnone
      cases hnone
    · exact heq
  · cases hnone

/-- The place of a row that is not null. -/
theorem Marked.denseIndex_of_set (h : t.Marked marks) (hset : marks[row]? = some true) :
    t.denseIndex row = (marks.take row).countP id :=
  h.denseIndex row (Nat.le_of_lt (List.getElem?_eq_some_iff.mp hset).1)

/-- **From a row to its place and back.** -/
theorem Marked.rowOfDense_denseIndex (h : t.Marked marks) (hset : marks[row]? = some true) :
    t.denseIndex row < t.nonNull ∧ t.rowOfDense (t.denseIndex row) = some row := by
  obtain ⟨hrow, hmark⟩ := List.getElem?_eq_some_iff.mp hset
  have hlt : t.denseIndex row < t.nonNull := by
    refine h.denseIndex_lt (h.rows ▸ hrow) ?_
    rw [h.isNull row hrow, hmark, Bool.not_true]
  rw [h.rowOfDense_of_lt hlt, h.denseIndex_of_set hset]
  exact ⟨h.denseIndex_of_set hset ▸ hlt, Bitmap.getElem?_setPlaces hset⟩

/-- **A tracker of marks** answers for them. -/
theorem Marked.answers (h : t.Marked marks) : t.Answers marks where
  rows := h.rows
  nonNull := h.nonNull
  isNull row hrow := by
    rw [h.rows] at hrow
    rw [h.isNull row hrow, Bool.not_not, List.getElem?_eq_getElem hrow]
  bitmap b hb := by
    obtain rfl := h.bitmap b hb
    rw [Bitmap.len_ofList, Bitmap.count_ofList, Bitmap.toList_ofList, h.rows, h.nonNull]
    exact ⟨rfl, rfl, rfl⟩
  noBitmap hnone := h.nonNull_of_none hnone
  denseIndex row hrow := h.denseIndex row (h.rows ▸ hrow)
  rowOfDense k hk := h.exists_row_of_lt hk
  rowOfDense_end := rowOfDense_nonNull t
  rowOfDense_beyond k hk := h.rowOfDense_eq_none hk
  rowOfDense_denseIndex row hset := h.rowOfDense_denseIndex hset
  denseIndex_rowOfDense k row hk hrow := by
    rw [h.rowOfDense_of_lt hk] at hrow
    obtain ⟨hset, hplace⟩ := Bitmap.of_getElem?_setPlaces hrow
    rw [h.denseIndex_of_set hset, hplace]

end Nulls

end ColumnFile
