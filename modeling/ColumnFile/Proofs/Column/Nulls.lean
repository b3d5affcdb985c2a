import ColumnFile.Column.Nulls
import ColumnFile.Proofs.Bitmap

/-! # Null tracking as a list of marks

A tracker that grows row by row is the tracker of the list of its marks: one mark for each row, set
when the row is not null.

* **`Nulls.ofMarks`** — the tracker of a list of marks; `push_ofMarks` is growth in that view.
* **`Nulls.isNull_ofMarks`**, **`Nulls.denseIndex_ofMarks`** — what it says of a row.
* **`Nulls.rowOfDense_ofMarks`** — the row at a place among those that are not null;
  `Nulls.exists_row` says what lies before it.
* **`filter_range'_places`** — what a filter of a range leaves between two of its places.
* **`Nulls.ofBitmap_ofMarks`** — the rows and the bitmap give the tracker back. -/

namespace ColumnFile

/-! ## (1) Filters of a range -/

/-- **The numbers below a place** among those of a range that a filter leaves are the ones before it
in that list; the end of the range is the place behind them all. -/
theorem filter_range_place {p : Nat → Bool} {n k row : Nat}
    (h : ((List.range n).filter p ++ [n])[k]? = some row) :
    (List.range row).filter p = ((List.range n).filter p).take k := by
  have hnodup : ((List.range n).filter p).Nodup := List.nodup_range.filter _
  by_cases hk : k < ((List.range n).filter p).length
  · rw [List.getElem?_append_left hk] at h
    obtain ⟨hrow, hp⟩ := List.mem_filter.mp (List.mem_of_getElem? h)
    rw [List.mem_range] at hrow
    -- the numbers from `row` on begin with `row` itself, which the filter leaves
    have hrange : List.range n = List.range row ++ row :: List.range' (row + 1) (n - row - 1) := by
      have hsplit := List.range'_append_1 (s := 0) (m := row) (n := n - row)
      rw [Nat.zero_add, Nat.add_sub_cancel' (Nat.le_of_lt hrow), ← List.range_eq_range',
        ← List.range_eq_range'] at hsplit
      rw [← hsplit, ← List.range'_succ, Nat.sub_add_cancel (Nat.sub_pos_of_lt hrow)]
    rw [hrange, List.filter_append, List.filter_cons_of_pos hp] at h hk hnodup ⊢
    have hplace : k = ((List.range row).filter p).length := by
      refine (List.getElem?_inj hk hnodup).mp ?_
      rw [h, List.getElem?_append_right (Nat.le_refl _), Nat.sub_self, List.getElem?_cons_zero]
    rw [hplace, List.take_left' rfl]
  · rw [List.getElem?_append_right (Nat.not_lt.mp hk), List.getElem?_singleton] at h
    split at h
    · cases h
      rw [List.take_of_length_le (Nat.not_lt.mp hk)]
    · cases h

/-- The numbers up to a place are the ones up to it in the list. -/
theorem filter_range_succ_place {p : Nat → Bool} {n k row : Nat}
    (h : ((List.range n).filter p)[k]? = some row) :
    (List.range (row + 1)).filter p = ((List.range n).filter p).take (k + 1) := by
  have hp : p row = true := (List.mem_filter.mp (List.mem_of_getElem? h)).2
  have hbelow : (List.range row).filter p = ((List.range n).filter p).take k := by
    refine filter_range_place ?_
    rw [List.getElem?_append_left (List.getElem?_eq_some_iff.mp h).1, h]
  rw [List.range_succ, List.filter_append, hbelow, List.take_add_one, h, List.filter_cons_of_pos hp]
  rfl

/-- **The numbers between two places** are a run of the list. -/
theorem filter_range'_places {p : Nat → Bool} {places : List Nat} {start len first last : Nat}
    (hfirst : (List.range first).filter p = places.take start)
    (hlast : (List.range last).filter p = places.take (start + len)) :
    (List.range' first (last - first)).filter p = (places.drop start).take len := by
  rcases Nat.le_total first last with hle | hle
  · have hsplit := List.range'_append_1 (s := 0) (m := first) (n := last - first)
    rw [Nat.zero_add, Nat.add_sub_cancel' hle, ← List.range_eq_range',
      ← List.range_eq_range'] at hsplit
    rw [← hsplit, List.filter_append, hfirst, List.take_add] at hlast
    exact List.append_cancel_left hlast
  · -- then there is nothing between them, in the list as well
    have hshort := (List.range_sublist.mpr hle).filter p
    have hlength := hshort.length_le
    rw [hfirst, hlast, List.length_take, List.length_take] at hlength
    rw [Nat.sub_eq_zero_of_le hle, List.range'_zero, List.filter_nil, eq_comm,
      ← List.length_eq_zero_iff, List.length_take, List.length_drop]
    omega

namespace Nulls

/-! ## (2) Marks -/

/-- **The tracker of a list of marks**, with a bitmap if some row is null. -/
def ofMarks (marks : List Bool) : Nulls where
  rows := marks.length
  nonNull := marks.countP id
  bitmap := if marks.all id then none else some (Bitmap.ofList marks)

@[simp] theorem rows_ofMarks (marks : List Bool) : (ofMarks marks).rows = marks.length := rfl

@[simp] theorem nonNull_ofMarks (marks : List Bool) : (ofMarks marks).nonNull = marks.countP id :=
  rfl

/-- The tracker of a list of marks that has a bitmap, whether some row is null or not. -/
def ofBits (marks : List Bool) : Nulls where
  rows := marks.length
  nonNull := marks.countP id
  bitmap := some (Bitmap.ofList marks)

/-- Marks are kept as bits when one of them is a null. -/
theorem ofMarks_eq_ofBits {marks : List Bool} (h : marks.all id = false) :
    ofMarks marks = ofBits marks := by
  rw [ofMarks, h, if_neg Bool.false_ne_true, ofBits]

/-- Marks without a null are all the same. -/
theorem eq_replicate_of_all {marks : List Bool} (h : marks.all id = true) :
    marks = List.replicate marks.length true := by
  rw [List.eq_replicate_iff]
  exact ⟨rfl, fun b hb => List.all_eq_true.mp h b hb⟩

/-- **One more row** is one more mark. -/
theorem push_ofMarks (marks : List Bool) (notNull : Bool) :
    (ofMarks marks).push notNull = ofMarks (marks ++ [notNull]) := by
  have hcount : (marks ++ [notNull]).countP id = marks.countP id + notNull.toNat := by
    rw [List.countP_append]
    cases notNull <;> rfl
  have hall : (marks ++ [notNull]).all id = (marks.all id && notNull) := by
    rw [List.all_append, List.all_cons, List.all_nil, Bool.and_true]
    rfl
  unfold push ofMarks
  dsimp only
  rw [hcount, hall, List.length_append, List.length_singleton]
  cases hmarks : marks.all id with
  | false =>
      rw [if_neg Bool.false_ne_true, Bool.false_and, if_neg Bool.false_ne_true]
      dsimp only
      rw [Bitmap.push_ofList]
  | true =>
      rw [if_pos rfl, Bool.true_and]
      cases notNull with
      | true => rfl
      | false =>
          dsimp only
          rw [if_neg Bool.false_ne_true, if_neg Bool.false_ne_true, Bitmap.filled_eq,
            ← eq_replicate_of_all hmarks, Bitmap.push_ofList]

/-- A row is null when its bit is not set. -/
theorem isNull_ofBits {marks : List Bool} {row : Nat} (h : row < marks.length) :
    (ofBits marks).isNull row = !marks[row] := by
  rw [isNull, ofBits]
  dsimp only
  rw [Bitmap.get_ofList, List.getElem?_eq_getElem h, Option.getD_some]

/-- **A row is null** when its mark is not set. -/
theorem isNull_ofMarks {marks : List Bool} {row : Nat} (h : row < marks.length) :
    (ofMarks marks).isNull row = !marks[row] := by
  cases hmarks : marks.all id with
  | false => rw [ofMarks_eq_ofBits hmarks, isNull_ofBits h]
  | true =>
      have hset : marks[row] = true := List.all_eq_true.mp hmarks _ (List.getElem_mem h)
      rw [ofMarks, hmarks, if_pos rfl, hset]
      rfl

/-- **The dense index** of a row counts the values before it. -/
theorem denseIndex_ofBits (marks : List Bool) (row : Nat) :
    (ofBits marks).denseIndex row = (marks.take row).countP id := by
  rw [denseIndex, ofBits]
  dsimp only
  rw [Bitmap.countRange_ofList, List.drop_zero]

/-- **The place of a row** among those that are not null is the count of set marks before it. -/
theorem denseIndex_ofMarks {marks : List Bool} {row : Nat} (h : row ≤ marks.length) :
    (ofMarks marks).denseIndex row = (marks.take row).countP id := by
  cases hmarks : marks.all id with
  | false => rw [ofMarks_eq_ofBits hmarks, denseIndex_ofBits]
  | true =>
      have hall : (marks.take row).countP id = (marks.take row).length := by
        rw [List.countP_eq_length]
        exact fun b hb => List.all_eq_true.mp hmarks b (List.mem_of_mem_take hb)
      rw [ofMarks, hmarks, if_pos rfl, hall, List.length_take, Nat.min_eq_left h]
      rfl

/-- **The rows that are not null**, in order. -/
def places (marks : List Bool) : List Nat := (Bitmap.ofList marks).ones

/-- **The places of values** are those of bits that are set. -/
theorem places_eq (marks : List Bool) :
    places marks = (List.range marks.length).filter (Bitmap.ofList marks).get := by
  rw [places, Bitmap.ones, Bitmap.len_ofList]

/-- There are as many places as values. -/
theorem length_places (marks : List Bool) : (places marks).length = marks.countP id := by
  rw [places, Bitmap.ones, ← List.countP_eq_length_filter, ← (Bitmap.tidy_ofList marks).count_eq,
    Bitmap.count_ofList]

/-- **The row of a value** is its place, and behind the last value the end. -/
theorem rowOfDense_ofBits (marks : List Bool) (k : Nat) :
    (ofBits marks).rowOfDense k = (places marks ++ [marks.length])[k]? := by
  have hlength := length_places marks
  rw [rowOfDense, ofBits]
  dsimp only
  by_cases hk : k = marks.countP id
  · rw [if_pos hk, hk, ← hlength, List.getElem?_concat_length]
  · rw [if_neg hk, (Bitmap.tidy_ofList marks).select_eq, ← places]
    rcases Nat.lt_or_gt_of_ne hk with hlt | hgt
    · rw [List.getElem?_append_left (by omega)]
    · rw [List.getElem?_eq_none (by omega),
        List.getElem?_eq_none (by rw [List.length_append, List.length_singleton]; omega)]

/-- **The row at a place** among those that are not null, and the end behind them all. -/
theorem rowOfDense_ofMarks (marks : List Bool) (k : Nat) :
    (ofMarks marks).rowOfDense k = (places marks ++ [marks.length])[k]? := by
  cases hmarks : marks.all id with
  | false => rw [ofMarks_eq_ofBits hmarks, rowOfDense_ofBits]
  | true =>
      -- without a bitmap every row is at its own place, and so is the end
      have hset : ∀ row < marks.length, (Bitmap.ofList marks).get row = true := by
        intro row hrow
        rw [Bitmap.get_ofList, List.getElem?_eq_getElem hrow, Option.getD_some]
        exact List.all_eq_true.mp hmarks _ (List.getElem_mem hrow)
      have hall : places marks = List.range marks.length := by
        rw [places_eq]
        exact List.filter_eq_self.mpr fun row hrow => hset row (List.mem_range.mp hrow)
      have hcount : marks.countP id = marks.length := by
        rw [← length_places, hall, List.length_range]
      rw [rowOfDense, ofMarks, hmarks, if_pos rfl, hall, ← List.range_succ]
      dsimp only
      rw [hcount]
      rcases Nat.lt_trichotomy k marks.length with hlt | rfl | hgt
      · rw [if_neg (Nat.ne_of_lt hlt), if_pos hlt, List.getElem?_range (by omega)]
      · rw [if_pos rfl, List.getElem?_range (Nat.lt_succ_self _)]
      · rw [if_neg (Nat.ne_of_gt hgt), if_neg (by omega),
          List.getElem?_eq_none (by rw [List.length_range]; exact hgt)]

/-- **The row at a place** is found, as is the end. Before it lie the values before that place. -/
theorem exists_row (marks : List Bool) {k : Nat} (h : k ≤ marks.countP id) :
    ∃ row, (ofMarks marks).rowOfDense k = some row ∧ row ≤ marks.length ∧
      (List.range row).filter (Bitmap.ofList marks).get = (places marks).take k := by
  have hlt : k < (places marks ++ [marks.length]).length := by
    rw [List.length_append, length_places, List.length_singleton]
    omega
  have hrow := rowOfDense_ofMarks marks k
  rw [places_eq] at hrow hlt ⊢
  have hplace := List.getElem?_eq_getElem hlt
  refine ⟨_, hrow.trans hplace, ?_, filter_range_place hplace⟩
  rcases List.mem_append.mp (List.getElem_mem hlt) with hmem | hmem
  · exact Nat.le_of_lt (List.mem_range.mp (List.mem_filter.mp hmem).1)
  · exact Nat.le_of_eq (List.mem_singleton.mp hmem)

/-- The row of a value counts: up to it lies one value more. -/
theorem exists_row_of_lt (marks : List Bool) {k : Nat} (h : k < marks.countP id) :
    ∃ row, (ofMarks marks).rowOfDense k = some row ∧ row + 1 ≤ marks.length ∧
      (List.range (row + 1)).filter (Bitmap.ofList marks).get = (places marks).take (k + 1) := by
  have hlt : k < (places marks).length := by
    rw [length_places]
    exact h
  have hrow : (ofMarks marks).rowOfDense k = (places marks)[k]? := by
    rw [rowOfDense_ofMarks, List.getElem?_append_left hlt]
  rw [places_eq] at hrow hlt ⊢
  have hplace := List.getElem?_eq_getElem hlt
  refine ⟨_, hrow.trans hplace, ?_, filter_range_succ_place hplace⟩
  exact List.mem_range.mp (List.mem_filter.mp (List.getElem_mem hlt)).1

/-- Some row is null exactly when there is a bitmap. -/
theorem lt_iff_not_all (marks : List Bool) :
    (ofMarks marks).nonNull < (ofMarks marks).rows ↔ marks.all id = false := by
  have hle := List.countP_le_length (p := id) (l := marks)
  rw [nonNull_ofMarks, rows_ofMarks]
  constructor
  · intro hlt
    cases hmarks : marks.all id with
    | false => rfl
    | true =>
        have hall : marks.countP id = marks.length :=
          List.countP_eq_length.mpr fun b hb => List.all_eq_true.mp hmarks b hb
        omega
  · intro hmarks
    rcases Nat.lt_or_ge (marks.countP id) marks.length with hlt | hge
    · exact hlt
    · have hall : marks.all id = true :=
        List.all_eq_true.mpr fun b hb => List.countP_eq_length.mp (Nat.le_antisymm hle hge) b hb
      rw [hall] at hmarks
      cases hmarks

/-- **The rows and the bitmap** give the tracker back. -/
theorem ofBitmap_ofMarks (marks : List Bool) :
    ofBitmap marks.length (ofMarks marks).bitmap = .ok (ofMarks marks) := by
  unfold ofMarks
  dsimp only
  cases hmarks : marks.all id with
  | false =>
      rw [if_neg Bool.false_ne_true, ofBitmap, Bitmap.len_ofList, if_neg (by simp),
        Bitmap.count_ofList]
  | true =>
      have hall : marks.countP id = marks.length :=
        List.countP_eq_length.mpr fun b hb => List.all_eq_true.mp hmarks b hb
      rw [if_pos rfl, ofBitmap, hall]

end Nulls

end ColumnFile
