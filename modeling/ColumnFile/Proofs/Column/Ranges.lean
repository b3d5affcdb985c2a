import ColumnFile.Proofs.Codec
import ColumnFile.Proofs.Column.Untrusted
import Mathlib.Data.List.Flatten

/-! # Ranges of values against single values

A range of the values of a column of variable length is one span of its data, from the row of the
first value to that of the value behind the range. The null rows between are left out if they are
empty. Rows that were appended are; of streams that no one vouches for it is not checked, as the
null rows come from the bitmap and the lengths from the offsets. A range then holds the octets of
the null rows among its values.

* **`VariableColumn.Inside.span_eq_flatMap`** — a span is made of the octets of its rows.
* **`Nulls.Marked.row_le_iff`** — which null rows lie behind the row of a value.
* **`Column.RangeAgrees`** — a range is its values, read one by one.
* **`Column.decoded_range`** — what a range of a decoded column is, and when it agrees. -/

namespace ColumnFile

/-! ## (1) Spans of rows -/

/-- **Blocks that are left out** of a join are the empty ones exactly when the join is the same
without them. -/
theorem flatten_filter_eq_iff (rows : List Nat) (p : Nat → Bool) (f : Nat → Bytes) :
    ((rows.filter p).map f).flatten = rows.flatMap f ↔ ∀ r ∈ rows, p r = false → f r = [] := by
  refine ⟨fun h => ?_, VariableColumn.flatten_filter rows⟩
  induction rows with
  | nil => exact fun r hr => nomatch hr
  | cons r rest ih =>
      rw [List.flatMap_cons] at h
      cases hp : p r with
      | true =>
          rw [List.filter_cons_of_pos hp, List.map_cons, List.flatten_cons] at h
          have hrest := ih (List.append_cancel_left h)
          intro x hx hpx
          rcases List.mem_cons.mp hx with rfl | hx
          · rw [hp] at hpx
            cases hpx
          · exact hrest x hx hpx
      | false =>
          rw [List.filter_cons_of_neg (by rw [hp]; exact Bool.false_ne_true)] at h
          -- what is left is no longer than all of it, so nothing was left out
          have hle : ((rest.filter p).map f).flatten.length ≤ (rest.flatMap f).length := by
            rw [List.flatMap_def]
            exact (List.filter_sublist.map f).flatten.length_le
          have hlength := congrArg List.length h
          rw [List.length_append] at hlength
          have hempty : f r = [] := List.eq_nil_of_length_eq_zero (by omega)
          rw [hempty, List.nil_append] at h
          intro x hx hpx
          rcases List.mem_cons.mp hx with rfl | hx
          · exact hempty
          · exact ih h x hx hpx

namespace VariableColumn

variable {c : VariableColumn} {first last : Nat}

/-- **A span** is made of the octets of its rows, as the offsets ascend inside the data. -/
theorem Inside.span_eq_flatMap (h : c.Inside) (hle : first ≤ last) (hlast : last ≤ c.nulls.rows) :
    c.span first last = (List.range' first (last - first)).flatMap fun row =>
      c.span row (row + 1) := by
  obtain ⟨n, rfl⟩ := Nat.exists_eq_add_of_le hle
  rw [Nat.add_sub_cancel_left]
  induction n with
  | zero =>
      rw [Nat.add_zero, span_eq, Nat.sub_self, List.take_zero]
      rfl
  | succ n ih =>
      have hsplit : c.span first (first + (n + 1)) =
          c.span first (first + n) ++ c.span (first + n) (first + n + 1) := by
        have hbegin := h.ascend first (first + n) (Nat.le_add_right _ _) (by omega)
        have hend := h.ascend (first + n) (first + n + 1) (Nat.le_succ _) hlast
        have hlength : c.offset (first + n + 1) - c.offset first =
            c.offset (first + n) - c.offset first +
              (c.offset (first + n + 1) - c.offset (first + n)) := by omega
        rw [← Nat.add_assoc, span_eq, span_eq, span_eq, hlength, List.take_add, List.drop_drop,
          Nat.add_sub_cancel' hbegin]
      rw [hsplit, ih (Nat.le_add_right _ _) (by omega), List.range'_1_concat, List.flatMap_append,
        List.flatMap_singleton]

end VariableColumn

/-! ## (2) Null rows among values -/

namespace Nulls

variable {t : Nulls} {marks : List Bool} {k k' row row' : Nat}

/-- **The rows that are not null**, in order. -/
def valueRows (t : Nulls) : List Nat := (List.range t.rows).filter fun row => !t.isNull row

/-- The rows of values are the places of values. -/
theorem Marked.valueRows_eq (h : t.Marked marks) : t.valueRows = places marks := by
  rw [valueRows, places_eq, h.rows]
  refine List.filter_congr fun row hrow => ?_
  have hlt := List.mem_range.mp hrow
  rw [h.isNull row hlt, Bool.not_not, Bitmap.get_ofList, List.getElem?_eq_getElem hlt,
    Option.getD_some]

/-- **The row at a place** is that of the value there, or the end. -/
theorem Marked.rowOfDense_eq (h : t.Marked marks) (k : Nat) :
    t.rowOfDense k = (t.valueRows ++ [t.rows])[k]? := by
  rw [h.rowOfDense, h.valueRows_eq, h.rows]

/-- No place is past the end. -/
theorem Marked.row_le_rows (h : t.Marked marks) (hk : t.rowOfDense k = some row) :
    row ≤ t.rows := by
  rw [h.rowOfDense_eq] at hk
  rcases List.mem_append.mp (List.mem_of_getElem? hk) with hrow | hend
  · exact Nat.le_of_lt (List.mem_range.mp (List.mem_filter.mp hrow).1)
  · exact Nat.le_of_eq (List.mem_singleton.mp hend)

/-- **The place of a row** counts the values before it. -/
theorem Marked.denseIndex_eq (h : t.Marked marks) (hrow : row ≤ t.rows) :
    t.denseIndex row = ((List.range row).filter fun row => !t.isNull row).length := by
  rw [h.rows] at hrow
  rw [h.denseIndex row hrow, ← length_places, places_eq, List.length_take, Nat.min_eq_left hrow]
  congr 1
  refine List.filter_congr fun r hr => ?_
  have hlt := List.mem_range.mp hr
  rw [h.isNull r (by omega), Bool.not_not, Bitmap.get_ofList, List.getElem?_take, if_pos hlt,
    List.getElem?_eq_getElem (by omega), Option.getD_some]

/-- The row at a place has that many values before it. -/
theorem Marked.filter_range (h : t.Marked marks) (hk : t.rowOfDense k = some row) :
    ((List.range row).filter fun row => !t.isNull row) = t.valueRows.take k := by
  rw [h.rowOfDense_eq] at hk
  exact filter_range_place hk

/-- The row at a place is that of a value if it is not the end. -/
theorem Marked.getElem?_valueRows (h : t.Marked marks) (hk : t.rowOfDense k = some row)
    (hrow : row < t.rows) :
    t.valueRows[k]? = some row := by
  rw [h.rowOfDense_eq] at hk
  by_cases hlt : k < t.valueRows.length
  · rw [← hk, List.getElem?_append_left hlt]
  · rw [List.getElem?_append_right (Nat.not_lt.mp hlt), List.getElem?_singleton] at hk
    split at hk
    · cases hk
      omega
    · cases hk

/-- **The place of the row at a place** is that place. -/
theorem Marked.denseIndex_rowOfDense (h : t.Marked marks) (hk : t.rowOfDense k = some row) :
    t.denseIndex row = k := by
  have hlt := (List.getElem?_eq_some_iff.mp (h.rowOfDense_eq k ▸ hk)).1
  rw [List.length_append, List.length_singleton] at hlt
  rw [h.denseIndex_eq (h.row_le_rows hk), h.filter_range hk, List.length_take,
    Nat.min_eq_left (Nat.le_of_lt_succ hlt)]

/-- Later rows have later places. -/
theorem Marked.denseIndex_mono (h : t.Marked marks) (hle : row ≤ row') (hrow' : row' ≤ t.rows) :
    t.denseIndex row ≤ t.denseIndex row' := by
  rw [h.denseIndex_eq hrow', h.denseIndex_eq (Nat.le_trans hle hrow')]
  exact ((List.range_sublist.mpr hle).filter _).length_le

/-- **A null row lies behind the row at a place** when more values lie before it. -/
theorem Marked.row_le_iff (h : t.Marked marks) (hk : t.rowOfDense k = some row)
    (hrow' : row' < t.rows) (hnull : t.isNull row' = true) : row ≤ row' ↔
    k < t.denseIndex row' := by
  constructor
  · intro hle
    have hplace := h.getElem?_valueRows hk (Nat.lt_of_le_of_lt hle hrow')
    have hvalue : (!t.isNull row) = true := (List.mem_filter.mp (List.mem_of_getElem? hplace)).2
    have hne : row ≠ row' := by
      rintro rfl
      rw [hnull] at hvalue
      cases hvalue
    -- the value of the row itself lies before the null row
    have hnext : t.denseIndex (row + 1) = k + 1 := by
      rw [h.denseIndex_eq (by omega), filter_range_succ_place hplace, ← valueRows, List.length_take,
        Nat.min_eq_left (List.getElem?_eq_some_iff.mp hplace).1]
    have hmono := h.denseIndex_mono (Nat.lt_of_le_of_ne hle hne) (Nat.le_of_lt hrow')
    rw [hnext] at hmono
    exact hmono
  · intro hlt
    refine Nat.not_lt.mp fun hgt => Nat.not_le.mpr hlt ?_
    rw [← h.denseIndex_rowOfDense hk]
    exact h.denseIndex_mono (Nat.le_of_lt hgt) (h.row_le_rows hk)

/-- **The null rows from one place to another** are those with so many values before them. -/
theorem Marked.forall_between_iff (h : t.Marked marks) (hkk' : k ≤ k')
    (hrow : t.rowOfDense k = some row) (hrow' : t.rowOfDense k' = some row') (p : Nat → Prop) :
    (∀ r ∈ List.range' row (row' - row), t.isNull r = true → p r) ↔
      ∀ r < t.rows, t.isNull r = true → k < t.denseIndex r → t.denseIndex r ≤ k' → p r := by
  have hle : row ≤ row' := h.row_le_row hkk' hrow hrow'
  have hend : row' ≤ t.rows := h.row_le_rows hrow'
  refine forall_congr' fun r => ?_
  rw [List.mem_range'_1, Nat.add_sub_cancel' hle]
  constructor
  · intro hp hr hnull hbehind hbefore
    refine hp ⟨(h.row_le_iff hrow hr hnull).mpr hbehind, ?_⟩ hnull
    exact Nat.not_le.mp fun hpast => Nat.not_lt.mpr hbefore ((h.row_le_iff hrow' hr hnull).mp hpast)
  · rintro hp ⟨hbehind, hbefore⟩ hnull
    have hr : r < t.rows := Nat.lt_of_lt_of_le hbefore hend
    refine hp hr hnull ((h.row_le_iff hrow hr hnull).mp hbehind) ?_
    exact Nat.not_lt.mp fun hpast =>
      Nat.not_lt.mpr ((h.row_le_iff hrow' hr hnull).mpr hpast) hbefore

/-- No row has more values before it than there are. -/
theorem Marked.denseIndex_le (h : t.Marked marks) (hrow : row ≤ t.rows) :
    t.denseIndex row ≤ t.nonNull := by
  rw [← h.denseIndex_rowOfDense (rowOfDense_nonNull t)]
  exact h.denseIndex_mono hrow (Nat.le_refl _)

end Nulls

/-! ## (3) Ranges of decoded columns -/

namespace Column

/-- **A range agrees** with single values: each of its rows has a value, and it is these values
joined. -/
def RangeAgrees (c : Column) (start len : Nat) : Prop :=
  ∃ values : List Bytes,
    ((c.nulls.valueRows.drop start).take len).map c.value = values.map (fun v => .ok (some v)) ∧
      c.range start len = .ok values.flatten

variable (stage offsetsStage : Stage) (attributes : Attributes) {rows : VariableColumn}
  {marks : List Bool}
  {places : List Nat} {start len first last : Nat}

/-- The rows that are not null have values. -/
theorem map_value_varying (hplaces : ∀ row ∈ places, row ∈ rows.nulls.valueRows) :
    places.map (varying rows stage offsetsStage attributes).value =
      (places.map fun row => rows.span row (row + 1)).map (fun v => .ok (some v)) := by
  rw [List.map_map]
  refine List.map_congr_left fun row hrow => ?_
  obtain ⟨hlt, hvalue⟩ := List.mem_filter.mp (hplaces row hrow)
  rw [Bool.not_eq_eq_eq_not, Bool.not_true] at hvalue
  rw [value, VariableColumn.value, Nulls.checkRow, if_pos (List.mem_range.mp hlt), ok_bind, hvalue,
    if_neg Bool.false_ne_true]
  rfl

/-- **A range of a column of variable length** holds the octets of all rows from that of its first
value to that of the value behind it. It agrees with single values exactly when the null rows among
them are empty. -/
theorem range_varying (hinside : rows.Inside) (hmarked : rows.nulls.Marked marks)
    (hrange : start + len ≤ rows.nulls.nonNull) (hfirst : rows.nulls.rowOfDense start = some first)
    (hlast : rows.nulls.rowOfDense (start + len) = some last) :
    (varying rows stage offsetsStage attributes).range start len =
        .ok ((List.range' first (last - first)).flatMap fun row => rows.span row (row + 1)) ∧
      ((varying rows stage offsetsStage attributes).RangeAgrees start len ↔
        ∀ row ∈ List.range' first (last - first),
          rows.nulls.isNull row = true → rows.span row (row + 1) = []) := by
  have hle : first ≤ last := hmarked.row_le_row (Nat.le_add_right _ _) hfirst hlast
  have hend : last ≤ rows.nulls.rows := hmarked.row_le_rows hlast
  -- a range is the octets between two offsets, which are those of the rows in between
  have hread : (varying rows stage offsetsStage attributes).range start len =
      .ok ((List.range' first (last - first)).flatMap fun row => rows.span row (row + 1)) := by
    rw [range, VariableColumn.range, if_neg (Nat.not_lt.mpr hrange), hfirst, hlast]
    dsimp only
    rw [hinside.span_eq_flatMap hle hend]
  -- of those rows, the ones with a value are the rows of the range
  have hplaces : (List.range' first (last - first)).filter (fun row => !rows.nulls.isNull row) =
      (rows.nulls.valueRows.drop start).take len :=
    filter_range'_places (hmarked.filter_range hfirst) (hmarked.filter_range hlast)
  have hvalues := map_value_varying stage offsetsStage attributes
    fun row (hrow : row ∈ (rows.nulls.valueRows.drop start).take len) =>
      List.mem_of_mem_drop (List.mem_of_mem_take hrow)
  -- reads of the values succeed, so they agree exactly when their octets do
  have hinjective : Function.Injective fun v : Bytes =>
    (Except.ok (some v) : Except Fault (Option Bytes)) :=
    fun v w h => Option.some.inj (Except.ok.inj h)
  have hjoined := flatten_filter_eq_iff (List.range' first (last - first))
    (fun row => !rows.nulls.isNull row) fun row => rows.span row (row + 1)
  rw [hplaces] at hjoined
  simp only [Bool.not_eq_false'] at hjoined
  refine ⟨hread, Iff.trans ?_ hjoined⟩
  constructor
  · rintro ⟨values, hmap, hjoin⟩
    rw [nulls, hvalues] at hmap
    rw [hread, Except.ok.injEq] at hjoin
    rw [List.map_injective_iff.mpr hinjective hmap, hjoin]
  · intro hjoin
    exact ⟨_, hvalues, by rw [hread, hjoin]⟩

variable [BlockLibrary] {spec : ColumnSpec} {format : StorageFormat} {encoding : ColumnEncoding}
  {count : Nat} {streams : ColumnStreams} {c : Column}

/-- **Ranges of a decoded column** of variable length, whatever its streams are. A range of values
is read as the octets of all rows from that of the first value on to that of the value behind the
last, or to the end. It agrees with the values read one by one exactly when every null row behind
the first value and not behind the one that follows the range is empty. So all ranges agree exactly
when every null row is empty that some value lies before, and decoding does not see to that. -/
theorem decoded_range (h : decode spec format encoding count streams = .ok c)
    (hkind : spec.kind.fixedWidth = none) :
    ∃ rows stage offsetsStage attributes, c = varying rows stage offsetsStage attributes ∧
      (∀ start len, start + len ≤ c.nonNull → ∃ first last,
        c.nulls.rowOfDense start = some first ∧ c.nulls.rowOfDense (start + len) = some last ∧
        c.range start len =
          .ok ((List.range' first (last - first)).flatMap fun row => rows.span row (row + 1)) ∧
        (c.RangeAgrees start len ↔ ∀ row < c.rows, c.nulls.isNull row = true →
          start < c.nulls.denseIndex row → c.nulls.denseIndex row ≤ start + len →
            rows.span row (row + 1) = [])) ∧
      ((∀ start len, start + len ≤ c.nonNull → c.RangeAgrees start len) ↔
        ∀ row < c.rows, c.nulls.isNull row = true → 0 < c.nulls.denseIndex row →
          rows.span row (row + 1) = []) := by
  obtain ⟨-, hwidth, hmarked, hinside⟩ := decode_ok h
  cases c with
  | fixed rows stage attributes => cases hwidth.trans hkind
  | varying rows stage offsetsStage attributes =>
      refine ⟨rows, stage, offsetsStage, attributes, rfl, ?_⟩
      generalize hc : varying rows stage offsetsStage attributes = c
      have hnulls : c.nulls = rows.nulls := by rw [← hc, nulls]
      rw [Column.rows, nonNull, hnulls]
      have hranges : ∀ start len, start + len ≤ rows.nulls.nonNull → ∃ first last,
          rows.nulls.rowOfDense start = some first ∧
          rows.nulls.rowOfDense (start + len) = some last ∧
          c.range start len =
            .ok ((List.range' first (last - first)).flatMap fun row => rows.span row (row + 1)) ∧
          (c.RangeAgrees start len ↔ ∀ row < rows.nulls.rows, rows.nulls.isNull row = true →
            start < rows.nulls.denseIndex row → rows.nulls.denseIndex row ≤ start + len →
              rows.span row (row + 1) = []) := by
        intro start len hrange
        obtain ⟨first, last, hfirst, hlast, -⟩ :=
          VariableColumn.Inside.ends hinside start len hrange
        obtain ⟨hread, hagrees⟩ :=
          range_varying stage offsetsStage attributes hinside hmarked hrange hfirst hlast
        rw [hc] at hread hagrees
        exact ⟨first, last, hfirst, hlast, hread, hagrees.trans
          (hmarked.forall_between_iff (Nat.le_add_right _ _) hfirst hlast _)⟩
      refine ⟨hranges, ?_⟩
      constructor
      · intro hall row hrow hnull hbehind
        -- the range of the one value before the row is enough
        have hplace : rows.nulls.denseIndex row ≤ rows.nulls.nonNull :=
          hmarked.denseIndex_le (Nat.le_of_lt hrow)
        have hone : rows.nulls.denseIndex row - 1 + 1 ≤ rows.nulls.nonNull := by omega
        obtain ⟨-, -, -, -, -, hagrees⟩ := hranges _ 1 hone
        exact hagrees.mp (hall _ 1 hone) row hrow hnull (by omega) (by omega)
      · intro hempty start len hrange
        obtain ⟨-, -, -, -, -, hagrees⟩ := hranges start len hrange
        exact hagrees.mpr fun row hrow hnull hbehind _ => hempty row hrow hnull (by omega)

omit [BlockLibrary] in
/-- Two rows, of which the second is null and yet has an octet: the range of the first value holds
both octets. -/
theorem decoded_range_null_octets :
    ∃ c, @decode .verbatim (.ofKind "note" .string) .dense { length := 2, offsetsLength := 12 } 2
        { present := some [0x01], data := [97, 98],
          offsets := some [0, 0, 0, 0, 1, 0, 0, 0, 2, 0, 0, 0] } = .ok c ∧
      c.value 0 = .ok (some [97]) ∧ c.value 1 = .ok none ∧ c.range 0 1 = .ok [97, 98] ∧
      ¬ c.RangeAgrees 0 1 := by
  let _ : BlockLibrary := .verbatim
  have hdecode : ∃ c, decode (.ofKind "note" .string) .dense { length := 2, offsetsLength := 12 } 2
        { present := some [0x01], data := [97, 98],
          offsets := some [0, 0, 0, 0, 1, 0, 0, 0, 2, 0, 0, 0] } = .ok c ∧
      c.value 0 = .ok (some [97]) ∧ c.value 1 = .ok none ∧ c.range 0 1 = .ok [97, 98] ∧
      c.rows = 2 ∧ c.nonNull = 1 ∧ c.nulls.isNull 1 = true ∧ c.nulls.denseIndex 1 = 1 :=
    ⟨_, rfl, rfl, rfl, by decide +kernel, rfl, rfl, rfl, rfl⟩
  obtain ⟨c, hc, hfirst, hsecond, hread, hrows, hnonNull, hnull, hbehind⟩ := hdecode
  refine ⟨c, hc, hfirst, hsecond, hread, fun hagrees => ?_⟩
  obtain ⟨rows, stage, offsetsStage, attributes, rfl, hranges, -⟩ := decoded_range hc rfl
  obtain ⟨_, _, _, _, _, hiff⟩ := hranges 0 1 (by rw [hnonNull])
  have hempty := hiff.mp hagrees 1 (by rw [hrows]; decide) hnull (by rw [hbehind]; decide)
    (by rw [hbehind])
  cases hc
  cases hempty

end Column

end ColumnFile
