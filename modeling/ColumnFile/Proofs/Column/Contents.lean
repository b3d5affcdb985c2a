import ColumnFile.Proofs.Stripe.ColumnSet

/-! # Columns refine lists of optional values

What a column shows of its rows is one list: the stored value of every row, or none. Steps of growth
only add to the end of that list, requests for the encoded streams leave it alone, and every way of
reading the column is a way of reading the list.

* **`contentsFrom`** — the stored values of cells.
* **`run_of_bounds`** — a run of blocks is what lies between two bounds.
* **`FixedColumn.range_spec`**, **`VariableColumn.range_spec`** — a range of a column is a run of
  its values.
* **`Column.Called`** — the columns that calls lead to, and the list that the calls make.
* **`Column.refines_contents`** — such a column shows that list. -/

namespace ColumnFile

/-! ## (1) The contents of cells -/

/-- The stored value of a row, if it is not null, when `base` octets are stored out of line before
it. -/
def Cell.content (base : Nat) (cell : Cell) : Option Bytes :=
  if cell.notNull then some (cell.stored base) else none

/-- **The stored values of cells**, when `base` octets are stored out of line before them. -/
def contentsFrom (base : Nat) : List Cell → List (Option Bytes)
  | [] => []
  | cell :: rest => cell.content base :: contentsFrom (base + cell.external.length) rest

/-- More cells add their stored values behind the others. -/
theorem contentsFrom_append (base : Nat) (cells more : List Cell) :
    contentsFrom base (cells ++ more) =
      contentsFrom base cells ++ contentsFrom (base + (externalOf cells).length) more := by
  induction cells generalizing base with
  | nil => rfl
  | cons cell rest ih =>
      rw [List.cons_append, contentsFrom, contentsFrom, ih, List.cons_append, externalOf,
        externalOf, List.flatMap_cons, List.length_append, Nat.add_assoc]

/-- Nulls have no contents. -/
theorem contentsFrom_replicate_null (base n : Nat) :
    contentsFrom base (List.replicate n .null) = List.replicate n none := by
  induction n with
  | zero => rfl
  | succ n ih =>
      rw [List.replicate_succ, contentsFrom, List.replicate_succ]
      exact congrArg (none :: ·) ih

/-- A row has the stored value of its cell behind what lies out of line before it. -/
theorem getElem?_contentsFrom (base : Nat) (cells : List Cell) (row : Nat) :
    (contentsFrom base cells)[row]? =
      cells[row]?.map (Cell.content (base + (externalOf (cells.take row)).length)) := by
  induction cells generalizing base row with
  | nil => rfl
  | cons cell rest ih =>
      cases row with
      | zero => rfl
      | succ row =>
          rw [contentsFrom, List.getElem?_cons_succ, ih, List.getElem?_cons_succ,
            List.take_succ_cons, externalOf, externalOf, List.flatMap_cons, List.length_append,
            Nat.add_assoc]

@[simp] theorem map_isSome_contentsFrom (base : Nat) (cells : List Cell) :
    (contentsFrom base cells).map Option.isSome = cells.map Cell.notNull := by
  induction cells generalizing base with
  | nil => rfl
  | cons cell rest ih =>
      have hcell : (cell.content base).isSome = cell.notNull := by
        cases cell <;> rfl
      rw [contentsFrom, List.map_cons, ih, hcell, List.map_cons]

@[simp] theorem length_contentsFrom (base : Nat) (cells : List Cell) :
    (contentsFrom base cells).length = cells.length := by
  have hmarks := congrArg List.length (map_isSome_contentsFrom base cells)
  rwa [List.length_map, List.length_map] at hmarks

/-- Cells without a value out of line store their values. -/
theorem contentsFrom_inside {cells : List Cell} (base : Nat)
    (h : ∀ cell ∈ cells, cell.isOutside = false) :
    contentsFrom base cells = cells.map Cell.value? := by
  induction cells generalizing base with
  | nil => rfl
  | cons cell rest ih =>
      have hcell : cell.content base = cell.value? := by
        have hinside := h cell List.mem_cons_self
        cases cell with
        | null => rfl
        | inline v => rfl
        | outside v => cases hinside
      rw [contentsFrom, hcell, ih _ fun x hx => h x (List.mem_cons_of_mem cell hx), List.map_cons]

/-! ## (2) Runs of blocks -/

/-- **A run of blocks** is what lies between the bound of its first block and that behind its
last. -/
theorem run_of_bounds (blocks : List Bytes) (first last : Nat) :
    (blocks.flatten.drop (blocks.take first).flatten.length).take
        ((blocks.take last).flatten.length - (blocks.take first).flatten.length) =
      ((blocks.drop first).take (last - first)).flatten := by
  have hdrop : blocks.flatten.drop (blocks.take first).flatten.length =
    (blocks.drop first).flatten := by
    conv_lhs => rw [← List.take_append_drop first blocks, List.flatten_append]
    rw [List.take_append_drop, List.drop_left' rfl]
  rw [hdrop]
  rcases Nat.le_total first last with hle | hle
  · have hlast : blocks.take last = blocks.take first ++
      (blocks.drop first).take (last - first) := by
      rw [← List.take_add, Nat.add_sub_cancel' hle]
    have hrun : (blocks.drop first).flatten = ((blocks.drop first).take (last - first)).flatten ++
        ((blocks.drop first).drop (last - first)).flatten := by
      rw [← List.flatten_append, List.take_append_drop]
    rw [hlast, List.flatten_append, List.length_append, Nat.add_sub_cancel_left, hrun,
      List.take_left' rfl]
  · -- the bounds stand the other way round, with no block between them
    have hshort : (blocks.take last).flatten.length ≤ (blocks.take first).flatten.length := by
      have hprefix : blocks.take last <+: blocks.take first := List.take_prefix_take_left hle
      obtain ⟨rest, hrest⟩ := hprefix
      rw [← hrest, List.flatten_append, List.length_append]
      exact Nat.le_add_right _ _
    rw [Nat.sub_eq_zero_of_le hshort, Nat.sub_eq_zero_of_le hle, List.take_zero, List.take_zero]
    rfl

/-- **The values at the rows that are not null** are the values of a list, in order. -/
theorem places_map {contents : List (Option Bytes)} {f : Nat → Bytes}
    (h : ∀ row v, contents[row]? = some (some v) → f row = v) :
    (Nulls.places (contents.map Option.isSome)).map f = contents.filterMap id := by
  have hmarks : ∀ row, (hrow : row < contents.length) →
      (Bitmap.ofList (contents.map Option.isSome)).get row = contents[row].isSome := by
    intro row hrow
    rw [Bitmap.get_ofList, List.getElem?_map, List.getElem?_eq_getElem hrow, Option.map_some,
      Option.getD_some]
  have hvalues := FixedColumn.filter_range_map hmarks h
  rw [Nulls.places, Bitmap.ones, Bitmap.len_ofList, List.length_map]
  exact hvalues

/-- The rows between two places are chosen by the null rows as by their marks. -/
theorem filter_isNull {marks : List Bool} {start len first last : Nat}
    (hfirst : (List.range first).filter (Bitmap.ofList marks).get = (Nulls.places marks).take start)
    (hlast : (List.range last).filter (Bitmap.ofList marks).get =
      (Nulls.places marks).take (start + len))
    (hend : last ≤ marks.length) :
    (List.range' first (last - first)).filter (fun r => !(Nulls.ofMarks marks).isNull r) =
      ((Nulls.places marks).drop start).take len := by
  rw [← filter_range'_places hfirst hlast]
  refine List.filter_congr fun row hrow => ?_
  have hlt : row < marks.length := by
    rw [List.mem_range'_1] at hrow
    omega
  rw [Nulls.isNull_ofMarks hlt, Bool.not_not, Bitmap.get_ofList, List.getElem?_eq_getElem hlt,
    Option.getD_some]

/-! ## (3) Ranges of columns of fixed width -/

namespace FixedColumn

variable {spec : ColumnSpec} {format : StorageFormat} {c : FixedColumn}
  {cells : List (Option Bytes)}

/-- The count of values of a column. -/
theorem nonNull_spec (hc : c.Holds spec format cells) :
    c.nulls.nonNull = (cells.filterMap id).length := by
  rw [hc.nulls_eq, Nulls.nonNull_ofMarks, length_filterMap]

/-- In dense storage a range is a run of the data. -/
theorem extract_dense (hc : c.Holds spec .dense cells) {start len : Nat}
    (h : start + len ≤ (cells.filterMap id).length) :
    (c.data.extract (start * c.width) ((start + len) * c.width)).toList =
      (((cells.filterMap id).drop start).take len).flatten := by
  have hblocks : ∀ b ∈ cells.filterMap id, b.length = c.width := by
    intro b hb
    obtain ⟨cell, hcell, heq⟩ := List.mem_filterMap.mp hb
    rw [id_eq] at heq
    exact hc.lengths b (heq ▸ hcell)
  have hbound : ∀ k ≤ (cells.filterMap id).length,
      k * c.width = ((cells.filterMap id).take k).flatten.length := by
    intro k hk
    rw [length_flatten_of_forall fun b hb => hblocks b (List.mem_of_mem_take hb), List.length_take,
      Nat.min_eq_left hk]
  rw [Array.toList_extract, List.extract_eq_take_drop, hc.data_eq, flatMap_dense, hbound _ h,
    hbound start (by omega), run_of_bounds, Nat.add_sub_cancel_left]

/-- In padded storage a range is what the rows hold from the first value to the last, nulls
aside. -/
theorem range_padded (hc : c.Holds spec .padded cells) {start len : Nat} (hlen : len ≠ 0)
    (h : start + len ≤ (cells.filterMap id).length) :
    ∃ first last, c.nulls.rowOfDense start = some first ∧
      c.nulls.rowOfDense (start + len - 1) = some last ∧
      ((List.range' first (last + 1 - first)).filter fun r => !c.nulls.isNull r).map c.slot =
        ((cells.filterMap id).drop start).take len := by
  rw [length_filterMap] at h
  obtain ⟨first, hfirst, -, hbefore⟩ :=
    Nulls.exists_row (cells.map Option.isSome) (k := start) (by omega)
  obtain ⟨last, hlast, hend, hupto⟩ :=
    Nulls.exists_row_of_lt (cells.map Option.isSome) (k := start + len - 1) (by omega)
  have hcount : start + len - 1 + 1 = start + len := by omega
  rw [hcount] at hupto
  have hvalues : (Nulls.places (cells.map Option.isSome)).map c.slot = cells.filterMap id := by
    refine places_map fun row v hrow => ?_
    obtain ⟨hlt, hcell⟩ := List.getElem?_eq_some_iff.mp hrow
    rw [slot_padded hc hlt, hcell]
    rfl
  refine ⟨first, last, ?_, ?_, ?_⟩
  · rw [hc.nulls_eq, hfirst]
  · rw [hc.nulls_eq, hlast]
  · rw [hc.nulls_eq, filter_isNull hbefore hupto hend, List.map_take, List.map_drop, hvalues]

/-- **A range of a column** is a run of its values, if it has as many. -/
theorem range_spec (hc : c.Holds spec format cells) (start len : Nat) :
    c.range start len =
      if (cells.filterMap id).length < start + len then .error .rangePastValues
      else .ok (((cells.filterMap id).drop start).take len).flatten := by
  rw [range, nonNull_spec hc]
  by_cases hpast : (cells.filterMap id).length < start + len
  · rw [if_pos hpast, if_pos hpast]
  · rw [if_neg hpast, if_neg hpast, hc.format_eq]
    cases format with
    | dense =>
        dsimp only
        rw [extract_dense hc (Nat.not_lt.mp hpast)]
    | padded =>
        dsimp only
        by_cases hlen : len = 0
        · rw [if_pos hlen, hlen, List.take_zero]
          rfl
        · obtain ⟨first, last, hfirst, hlast, hrun⟩ := range_padded hc hlen (Nat.not_lt.mp hpast)
          rw [if_neg hlen, hfirst, hlast]
          dsimp only
          rw [List.flatMap_def, hrun]

end FixedColumn

/-! ## (4) Ranges of columns of variable length -/

namespace VariableColumn

variable {spec : ColumnSpec} {format : StorageFormat} {c : VariableColumn} {cells : List Cell}

/-- The octets of the rows from one to another are those of each row in turn. -/
theorem span_run (hc : c.Holds spec format cells) {first last : Nat} (hfirst : first ≤ cells.length)
    (hlast : last ≤ cells.length) :
    c.span first last = (List.range' first (last - first)).flatMap fun r => c.span r (r + 1) := by
  have hrows : (List.range' first (last - first)).map (fun r => c.span r (r + 1)) =
      ((storedFrom 0 cells).drop first).take (last - first) := by
    rw [← spans_eq hc, ← List.map_drop, ← List.map_take, List.range_eq_range', List.drop_range',
      List.take_range'_of_length_ge (by omega), Nat.zero_add, Nat.mul_one]
  rw [span_eq, offset_spec hc hfirst, offset_spec hc hlast, hc.data_eq, run_of_bounds,
    List.flatMap_def, hrows]

/-- The values of the rows that are not null. -/
theorem places_span (hc : c.Holds spec format cells) :
    (Nulls.places (cells.map Cell.notNull)).map (fun r => c.span r (r + 1)) =
      (contentsFrom 0 cells).filterMap id := by
  rw [← map_isSome_contentsFrom 0 cells]
  refine places_map fun row v hrow => ?_
  rw [getElem?_contentsFrom, Nat.zero_add, Option.map_eq_some_iff] at hrow
  obtain ⟨cell, hcell, hcontent⟩ := hrow
  rw [span_spec hc hcell]
  unfold Cell.content at hcontent
  split at hcontent
  · exact Option.some.inj hcontent
  · cases hcontent

/-- **A range of a column** is a run of its values, if it has as many. -/
theorem range_spec (hc : c.Holds spec format cells) (start len : Nat) :
    c.range start len =
      if ((contentsFrom 0 cells).filterMap id).length < start + len then .error .rangePastValues
      else .ok ((((contentsFrom 0 cells).filterMap id).drop start).take len).flatten := by
  have hcount : (cells.map Cell.notNull).countP id =
    ((contentsFrom 0 cells).filterMap id).length := by
    rw [← Nulls.length_places, ← places_span hc, List.length_map]
  rw [range, hc.nulls_eq, Nulls.nonNull_ofMarks, ← hcount]
  by_cases hpast : (cells.map Cell.notNull).countP id < start + len
  · rw [if_pos hpast, if_pos hpast]
  · rw [if_neg hpast, if_neg hpast]
    obtain ⟨first, hfirst, hfirst', hbefore⟩ :=
      Nulls.exists_row (cells.map Cell.notNull) (k := start) (by omega)
    obtain ⟨last, hlast, hlast', hupto⟩ :=
      Nulls.exists_row (cells.map Cell.notNull) (k := start + len) (by omega)
    rw [hfirst, hlast]
    dsimp only
    -- null rows are empty, so they may be left out of the rows between
    have hnulls : ∀ r ∈ List.range' first (last - first),
        (!(Nulls.ofMarks (cells.map Cell.notNull)).isNull r) = false → c.span r (r + 1) = [] := by
      intro r hr hnull
      rw [List.mem_range'_1] at hr
      rw [List.length_map] at hlast'
      refine span_of_isNull hc (by omega) ?_
      rw [hc.nulls_eq, ← Bool.not_eq_false']
      exact hnull
    rw [span_run hc (List.length_map _ ▸ hfirst') (List.length_map _ ▸ hlast'),
      ← flatten_filter _ hnulls, filter_isNull hbefore hupto hlast', List.map_take, List.map_drop,
      places_span hc]

end VariableColumn

namespace Column

variable {spec : ColumnSpec} {format : StorageFormat} {c c' : Column} {cells : List Cell}
  {contents : List (Option Bytes)} {outside : Bytes}

/-! ## (5) Columns that hold cells -/

/-- **A column refines a list** of stored values: it has a row for each member and a bitmap when
some of them is missing, and what it reads, row by row or a range at a time, is what the list
says. -/
structure Refines (c : Column) (contents : List (Option Bytes)) : Prop where
  rows : c.rows = contents.length
  nonNull : c.nonNull = (contents.filterMap id).length
  unmarked : c.nulls.bitmap = none ↔ none ∉ contents
  marked : ∀ b, c.nulls.bitmap = some b → b.toList = contents.map Option.isSome
  value : ∀ row v, contents[row]? = some v → c.value row = .ok v
  pastRows : ∀ row, contents.length ≤ row →
    c.value row = .error (.rowOutOfRange row contents.length)
  range : ∀ start len, start + len ≤ c.nonNull →
    c.range start len = .ok (((contents.filterMap id).drop start).take len).flatten
  pastValues : ∀ start len, c.nonNull < start + len → c.range start len = .error .rangePastValues

/-- A row past the end is refused. -/
theorem value_past {row : Nat} (h : c.rows ≤ row) :
    c.value row = .error (.rowOutOfRange row c.rows) := by
  have hcheck : c.nulls.checkRow row = .error (.rowOutOfRange row c.rows) := by
    exact if_neg (Nat.not_lt.mpr h)
  cases c with
  | fixed rows stage attributes =>
      show rows.value row = _
      rw [FixedColumn.value]
      exact congrArg (· >>= _) hcheck
  | varying rows stage offsetsStage attributes =>
      show rows.value row = _
      rw [VariableColumn.value]
      exact congrArg (· >>= _) hcheck

variable [BlockLibrary]

/-- A range of a column that holds cells is a run of their values. -/
theorem Holds.range_eq (hc : c.Holds spec format cells) (start len : Nat) :
    c.range start len =
      if ((contentsFrom 0 cells).filterMap id).length < start + len then .error .rangePastValues
      else .ok ((((contentsFrom 0 cells).filterMap id).drop start).take len).flatten := by
  cases hc with
  | fixed hrows hinside _ =>
      rw [contentsFrom_inside 0 hinside]
      exact FixedColumn.range_spec hrows start len
  | varying hrows _ _ => exact VariableColumn.range_spec hrows start len

/-- **A column that holds cells** refines the list of their stored values. -/
theorem Holds.refines (hc : c.Holds spec format cells) : c.Refines (contentsFrom 0 cells) := by
  have hnulls : c.nulls = Nulls.ofMarks ((contentsFrom 0 cells).map Option.isSome) := by
    rw [map_isSome_contentsFrom]
    exact hc.nulls_eq
  have hrows : c.rows = (contentsFrom 0 cells).length := by
    rw [hc.rows_eq, length_contentsFrom]
  have hnonNull : c.nonNull = ((contentsFrom 0 cells).filterMap id).length := by
    rw [nonNull, hnulls, Nulls.nonNull_ofMarks, FixedColumn.length_filterMap]
  -- there is a bitmap exactly when a null row is among the contents
  have hbitmap : c.nulls.bitmap =
      if none ∉ contentsFrom 0 cells then none
      else some (Bitmap.ofList ((contentsFrom 0 cells).map Option.isSome)) := by
    have hall : ((contentsFrom 0 cells).map Option.isSome).all id = true ↔
      none ∉ contentsFrom 0 cells := by
      rw [List.all_map, List.all_eq_true]
      constructor
      · intro hset hnone
        cases hset none hnone
      · intro hsome value hvalue
        exact Option.isSome_iff_ne_none.mpr fun hnone => hsome (hnone ▸ hvalue)
    rw [hnulls, Nulls.ofMarks]
    simp only [hall]
  -- then every answer is one that cells give
  refine ⟨hrows, hnonNull, ?_, ?_, ?_, ?_, ?_, ?_⟩
  · rw [hbitmap]
    simp
  · intro b hb
    rw [hbitmap] at hb
    split at hb
    · cases hb
    · cases hb
      exact Bitmap.toList_ofList _
  · intro row v hrow
    rw [getElem?_contentsFrom, Nat.zero_add, Option.map_eq_some_iff] at hrow
    obtain ⟨cell, hcell, rfl⟩ := hrow
    exact hc.value_eq hcell
  · intro row hrow
    rw [← hrows] at hrow ⊢
    exact value_past hrow
  · intro start len hle
    rw [hc.range_eq, if_neg (by omega)]
  · intro start len hlt
    rw [hc.range_eq, if_pos (by omega)]

/-! ## (6) Calls -/

/-- The reference that a value leaves in its row, when `outside` is stored out of line before it. -/
def reference (outside value : Bytes) : Bytes :=
  ToastRef.encode { offset := UInt64.ofNat outside.length, length := UInt64.ofNat value.length }

/-- **The columns** that calls lead to, from a new column on, with the list of stored values that
the calls made and the octets that they stored out of line. -/
inductive Called (spec : ColumnSpec) (format : StorageFormat) :
    Column → List (Option Bytes) → Bytes → Prop
  /-- A new column, whatever its encodings and attributes. -/
  | new (choice offsets : EncodingChoice) (attributes : Attributes) {c : Column}
      (h : Column.new spec format choice offsets attributes = .ok c) : Called spec format c [] []
  /-- One more value. -/
  | append {c c' : Column} {contents : List (Option Bytes)} {outside : Bytes}
      (hc : Called spec format c contents outside) (value : Bytes)
        (h : c.append value = (.ok (), c')) :
      Called spec format c' (contents ++ [some value]) outside
  /-- One more null row. -/
  | appendNull {c c' : Column} {contents : List (Option Bytes)} {outside : Bytes}
      (hc : Called spec format c contents outside) (h : c.appendNull = (.ok (), c')) :
      Called spec format c' (contents ++ [none]) outside
  /-- One more value out of line, which leaves a reference. -/
  | appendToast {c c' : Column} {contents : List (Option Bytes)} {outside : Bytes}
      (hc : Called spec format c contents outside) (value : Bytes)
      (h : c.appendToast value = (.ok (), c')) :
      Called spec format c' (contents ++ [some (reference outside value)]) (outside ++ value)
  /-- Null rows up to a count. -/
  | setRows {c c' : Column} {contents : List (Option Bytes)} {outside : Bytes}
      (hc : Called spec format c contents outside) (count : Nat)
        (h : c.setRows count = (.ok (), c')) :
      Called spec format c' (contents ++ List.replicate (count - contents.length) none) outside
  /-- The data stream is asked for, and made or not. -/
  | encodeData {c : Column} {contents : List (Option Bytes)} {outside : Bytes}
      (hc : Called spec format c contents outside) :
        Called spec format c.encodeData.2 contents outside
  /-- The offsets stream is asked for, and made or not. -/
  | encodeOffsets {c : Column} {contents : List (Option Bytes)} {outside : Bytes}
      (hc : Called spec format c contents outside) :
      Called spec format c.encodeOffsets.2 contents outside

/-- **Every such column** holds cells, which store the list. -/
theorem Called.holds (h : Called spec format c contents outside) :
    ∃ cells, c.Holds spec format cells ∧ contentsFrom 0 cells = contents ∧
      externalOf cells = outside := by
  -- cells are added as the calls add them
  induction h with
  | new choice offsets attributes h => exact ⟨[], new_spec h, rfl, rfl⟩
  | append hc value h ih =>
      obtain ⟨cells, hcells, rfl, rfl⟩ := ih
      refine ⟨_, append_spec hcells h, contentsFrom_append 0 cells _, ?_⟩
      simp [externalOf, Cell.external]
  | appendNull hc h ih =>
      obtain ⟨cells, hcells, rfl, rfl⟩ := ih
      refine ⟨_, appendNull_spec hcells h, contentsFrom_append 0 cells _, ?_⟩
      simp [externalOf, Cell.external]
  | appendToast hc value h ih =>
      obtain ⟨cells, hcells, rfl, rfl⟩ := ih
      refine ⟨_, appendToast_spec hcells h, ?_, ?_⟩
      · rw [contentsFrom_append, Nat.zero_add]
        rfl
      · simp [externalOf, Cell.external]
  | setRows hc count h ih =>
      obtain ⟨cells, hcells, rfl, rfl⟩ := ih
      refine ⟨_, (setRows_spec hcells h).2, ?_, ?_⟩
      · rw [contentsFrom_append, contentsFrom_replicate_null, length_contentsFrom]
      · simp [externalOf, Cell.external]
  | encodeData hc ih =>
      obtain ⟨cells, hcells, hcontents, houtside⟩ := ih
      exact ⟨cells, encodeData_holds hcells, hcontents, houtside⟩
  | encodeOffsets hc ih =>
      obtain ⟨cells, hcells, hcontents, houtside⟩ := ih
      exact ⟨cells, encodeOffsets_holds hcells, hcontents, houtside⟩

/-- **Columns refine lists of optional values.** Whatever successful steps of growth lead to a
column, in any storage format and with any encodings, and whenever its encoded streams are asked for
in between: its rows, its values and its ranges are those of the list that the steps made, and the
references in that list count the octets that the column stores out of line. -/
theorem refines_contents (h : Called spec format c contents outside) :
    c.Refines contents ∧ c.external = outside := by
  obtain ⟨cells, hcells, rfl, rfl⟩ := h.holds
  exact ⟨hcells.refines, hcells.external_eq⟩

end Column

end ColumnFile
