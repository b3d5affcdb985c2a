import ColumnFile.Column.Machine
import ColumnFile.Proofs.Codec.Machine
import ColumnFile.Proofs.Column.Contents
import ColumnFile.Proofs.Column.Ranges
import ColumnFile.Proofs.Machine

/-! # Columns within a machine

The places of slots and of offsets are products of words. Where the slots, or the offsets, take
fewer octets than a word can count, no such product overflows, and columns are decoded and read as
numbers say. Where they would take more, no column is let through; but the product that is to tell
stops the program instead, if nothing was wrong before it. A range stops it when the place behind
its last value is not a word.

* **`Machine.fixedRange_eq`**, **`Machine.variableRange_eq`** — ranges of rows whose reads stay
  inside.
* **`Column.extent`** — the octets that the slots or the offsets of some rows take.
* **`Machine.Guards`** — a computation on a machine, and the same one on numbers, as long as
  something fits.
* **`Machine.decode_guards`** — decoding; **`Machine.decode_refused_or_read`** — columns of any
  streams.
* **`Machine.Reads`** — reads of a column that shows a list; **`Machine.called_reads`** — columns
  that calls lead to. -/

namespace ColumnFile

/-! ## (1) Values between two places -/

namespace Nulls

variable {t : Nulls} {marks : List Bool} {start len first last : Nat}

/-- There are as many rows with values as values. -/
theorem Marked.length_valueRows (h : t.Marked marks) : t.valueRows.length = t.nonNull := by
  rw [h.valueRows_eq, length_places, h.nonNull]

/-- **From the row of the first value of a range to that of its last** there are as many values as
the range has. -/
theorem Marked.length_between (h : t.Marked marks) (hlen : len ≠ 0) (hle : start + len ≤ t.nonNull)
    (hfirst : t.rowOfDense start = some first)
    (hlast : t.rowOfDense (start + len - 1) = some last) :
    ((List.range' first (last + 1 - first)).filter fun row => !t.isNull row).length = len := by
  have hend : last < t.rows := h.row_lt_row (by omega) hlast (rowOfDense_nonNull t)
  have hupto := filter_range_succ_place (h.getElem?_valueRows hlast hend)
  rw [show start + len - 1 + 1 = start + len by omega] at hupto
  rw [filter_range'_places (h.filter_range hfirst) hupto, List.length_take, List.length_drop]
  change min len (t.valueRows.length - start) = len
  rw [h.length_valueRows]
  omega

end Nulls

namespace Machine

/-! ## (2) Columns of fixed width -/

section Fixed

variable {c : FixedColumn} {marks : List Bool} {first last row start len : Nat} {rows : List Nat}

/-- **A run of slots** inside of data that a word can count. -/
theorem run_eq (hsize : c.data.size < 2 ^ 64) (hle : first ≤ last)
    (hlast : last * c.width ≤ c.data.size) :
    run c first last = .ok (c.data.extract (first * c.width) (last * c.width)).toList := by
  have hfirst : first * c.width ≤ last * c.width := Nat.mul_le_mul_right c.width hle
  rw [run, mul_eq (by omega), ok_bind, mul_eq (by omega), ok_bind, within_eq hfirst hlast, ok_bind]
  rfl

/-- Slots behind each other are one run. -/
theorem flatMap_slot_range' (c : FixedColumn) (first count : Nat) :
    (List.range' first count).flatMap c.slot =
      (c.data.extract (first * c.width) ((first + count) * c.width)).toList := by
  induction count with
  | zero => simp
  | succ count ih =>
      have hbegin : first * c.width ≤ (first + count) * c.width :=
        Nat.mul_le_mul_right _ (Nat.le_add_right _ _)
      have hend : (first + count) * c.width ≤ (first + count + 1) * c.width :=
        Nat.mul_le_mul_right _ (Nat.le_succ _)
      rw [List.range'_1_concat, List.flatMap_append, List.flatMap_singleton, ih, FixedColumn.slot,
        ← Array.toList_append, Array.extract_append_extract, Nat.min_eq_left hbegin,
        Nat.max_eq_right hend, Nat.add_assoc]

/-- **Slots of rows** inside of data that a word can count, by induction on the rows. -/
theorem gather_eq (hsize : c.data.size < 2 ^ 64) (hwidth : 0 < c.width)
    (h : ∀ row ∈ rows, (row + 1) * c.width ≤ c.data.size) :
    gather c rows = .ok (rows.flatMap c.slot) := by
  induction rows with
  | nil => rfl
  | cons row rows ih =>
      have hrow := h row List.mem_cons_self
      have hnext : row + 1 ≤ (row + 1) * c.width := Nat.le_mul_of_pos_right _ hwidth
      rw [gather, add_eq (by omega), ok_bind, run_eq hsize (Nat.le_succ row) hrow, ok_bind,
        ih fun r hr => h r (List.mem_cons_of_mem row hr)]
      rfl

/-- **The value of a row** whose slot is inside. -/
theorem fixedValue_eq (hinside : c.Inside) (hsize : c.data.size < 2 ^ 64) :
    fixedValue c row = (c.value row).mapError .fault := by
  rw [fixedValue, FixedColumn.value, Nulls.checkRow]
  by_cases hrow : row < c.nulls.rows
  · rw [if_pos hrow]
    cases hnull : c.nulls.isNull row with
    | true => rfl
    | false =>
        have hslot := hinside.slot row hrow hnull
        rw [Nat.succ_mul] at hslot
        show (mul _ _ >>= _) = _
        rw [mul_eq (by omega), ok_bind, add_eq (by omega), ok_bind,
          within_eq (Nat.le_add_right _ _) hslot, ok_bind, ← Nat.succ_mul]
        rfl
  · rw [if_neg hrow]
    rfl

/-- **The values of a range**, taken at once or one after another: they are what lies in the slots
that are not those of null rows. Only the place behind the last of them may not be a word. -/
theorem fixedRange_eq (hinside : c.Inside) (hmarked : c.nulls.Marked marks)
    (hsize : c.data.size < 2 ^ 64) (hwidth : 0 < c.width) :
    fixedRange c start len =
      if UInt64.size ≤ start + len then .error (.trap .overflow)
      else (c.range start len).mapError .fault := by
  -- the place behind the last value is not a word, there are not as many values, or the range is
  -- read
  by_cases hword : UInt64.size ≤ start + len
  · rw [if_pos hword, fixedRange, add_overflow hword]
    rfl
  rw [if_neg hword, fixedRange, FixedColumn.range, add_eq (Nat.not_le.mp hword), ok_bind]
  by_cases hpast : c.nulls.nonNull < start + len
  · rw [if_pos hpast, if_pos hpast]
    rfl
  rw [if_neg hpast, if_neg hpast]
  have hle : start + len ≤ c.nulls.nonNull := Nat.not_lt.mp hpast
  cases hformat : c.format with
  | dense => exact run_eq hsize (Nat.le_add_right _ _) (hinside.run hformat start len hle)
  | padded =>
      by_cases hlen : len = 0
      · simp only [if_pos hlen]
        rfl
      obtain ⟨first, row, hfirst, hrow, hbefore, hend⟩ := hinside.ends hformat start len hlen hle
      have hnext : row + 1 ≤ (row + 1) * c.width := Nat.le_mul_of_pos_right _ hwidth
      have hcount := hmarked.length_between hlen hle hfirst hrow
      simp only [if_neg hlen, sub_eq (show 1 ≤ start + len by omega), ok_bind, hfirst, hrow,
        add_eq (show row + 1 < 2 ^ 64 by omega), sub_eq (show first ≤ row + 1 by omega)]
      by_cases hall : row + 1 - first = len
      · -- as many values as rows, so no null row is among them
        have hkeep : (List.range' first (row + 1 - first)).filter (fun row => !c.nulls.isNull row) =
            List.range' first (row + 1 - first) := by
          refine List.filter_sublist.eq_of_length ?_
          rw [hcount, List.length_range', hall]
        rw [if_pos hall, hkeep, flatMap_slot_range', Nat.add_sub_cancel' (by omega),
          run_eq hsize (by omega) hend]
        rfl
      · rw [if_neg hall, gather_eq hsize hwidth]
        · rfl
        · intro r hr
          have hr' := List.mem_range'_1.mp (List.mem_of_mem_filter hr)
          exact Nat.le_trans (Nat.mul_le_mul_right _ (by omega)) hend

end Fixed

/-! ## (3) Columns of variable length -/

section Variable

variable {c : VariableColumn} {first last row start len i : Nat}

/-- **An offset** among offsets that a word can count. -/
theorem offset_eq (hinside : c.Inside)
    (hsize : VariableColumn.offsetWidth * c.offsets.size < 2 ^ 64) (hi : i ≤ c.nulls.rows) :
    offset c i = .ok (c.offset i) := by
  have hoffsets := hinside.offsets
  unfold VariableColumn.offsetWidth at hsize
  rw [offset, VariableColumn.offsetWidth, mul_eq (by omega), ok_bind, add_eq (by omega), ok_bind,
    within_eq (Nat.le_add_right _ _) (by omega)]
  rfl

/-- **What lies between two offsets** in order. -/
theorem span_eq (hinside : c.Inside) (hsize : VariableColumn.offsetWidth * c.offsets.size < 2 ^ 64)
    (hle : first ≤ last) (hlast : last ≤ c.nulls.rows) :
    span c first last = .ok (c.span first last) := by
  have hend : c.offset last ≤ c.data.size := by
    rw [← hinside.last]
    exact hinside.ascend last _ hlast (Nat.le_refl _)
  rw [span, offset_eq hinside hsize (Nat.le_trans hle hlast), ok_bind,
    offset_eq hinside hsize hlast, ok_bind, within_eq (hinside.ascend first last hle hlast) hend]
  rfl

/-- **The value of a row** between its offsets. -/
theorem variableValue_eq (hinside : c.Inside)
    (hsize : VariableColumn.offsetWidth * c.offsets.size < 2 ^ 64) :
    variableValue c row = (c.value row).mapError .fault := by
  rw [variableValue, VariableColumn.value, Nulls.checkRow]
  by_cases hrow : row < c.nulls.rows
  · rw [if_pos hrow]
    cases hnull : c.nulls.isNull row with
    | true => rfl
    | false =>
        have hoffsets := hinside.offsets
        unfold VariableColumn.offsetWidth at hsize
        show (add _ _ >>= _) = _
        rw [add_eq (by omega), ok_bind, span_eq hinside hsize (Nat.le_succ row) hrow]
        rfl
  · rw [if_neg hrow]
    rfl

/-- **The octets of a range** between two offsets. Only the place behind its last value may not be a
word. -/
theorem variableRange_eq (hinside : c.Inside)
    (hsize : VariableColumn.offsetWidth * c.offsets.size < 2 ^ 64) :
    variableRange c start len =
      if UInt64.size ≤ start + len then .error (.trap .overflow)
      else (c.range start len).mapError .fault := by
  by_cases hword : UInt64.size ≤ start + len
  · rw [if_pos hword, variableRange, add_overflow hword]
    rfl
  rw [if_neg hword, variableRange, VariableColumn.range, add_eq (Nat.not_le.mp hword), ok_bind]
  by_cases hpast : c.nulls.nonNull < start + len
  · rw [if_pos hpast, if_pos hpast]
    rfl
  rw [if_neg hpast, if_neg hpast]
  obtain ⟨first, last, hfirst, hlast, hle, hend⟩ := hinside.ends start len (Nat.not_lt.mp hpast)
  rw [hfirst, hlast]
  exact span_eq hinside hsize hle hend

end Variable

end Machine

/-! ## (4) Columns -/

namespace Column

/-- **The octets that rows are found by**: those of the slots, or of the offsets. -/
def placed : Column → Nat
  | fixed rows .. => rows.data.size
  | varying rows .. => VariableColumn.offsetWidth * rows.offsets.size

/-- What is placed is within the size. -/
theorem placed_le_size (c : Column) : c.placed ≤ c.size := by
  cases c with
  | fixed rows stage attributes => exact Nat.le_add_right _ _
  | varying rows stage offsetsStage attributes =>
      show VariableColumn.offsetWidth * rows.offsets.size ≤ rows.size
      unfold VariableColumn.size
      omega

/-- **A column fits a machine**: its reads stay inside, and the slots or the offsets take fewer
octets than a word can count. -/
structure Fits (c : Column) : Prop where
  inside : c.Inside
  marked : ∃ marks, c.nulls.Marked marks
  width : ∀ width, c.width? = some width → 0 < width
  placed : c.placed < UInt64.size

/-- A range past the values is refused. -/
theorem range_past {c : Column} {start len : Nat} (h : c.nonNull < start + len) :
    c.range start len = .error .rangePastValues := by
  cases c with
  | fixed rows stage attributes => exact if_pos h
  | varying rows stage offsetsStage attributes => exact if_pos h

/-- There are fewer values than a word can count. -/
theorem Fits.nonNull_lt {c : Column} (h : c.Fits) : c.nonNull < UInt64.size := by
  refine Nat.lt_of_le_of_lt ?_ h.placed
  obtain ⟨marks, hmarked⟩ := h.marked
  have hinside := h.inside
  have hwidth := h.width
  have hle : c.nonNull ≤ c.rows := by
    rw [nonNull, rows, hmarked.nonNull, hmarked.rows]
    exact List.countP_le_length
  cases c with
  | fixed rows stage attributes =>
      have hslots : rows.nulls.nonNull ≤ FixedColumn.slots rows.format rows.nulls := by
        cases rows.format with
        | dense => exact Nat.le_refl _
        | padded => exact hle
      show rows.nulls.nonNull ≤ rows.data.size
      rw [FixedColumn.Inside.size hinside]
      exact Nat.le_trans hslots (Nat.le_mul_of_pos_right _ (hwidth _ rfl))
  | varying rows stage offsetsStage attributes =>
      have hcount := VariableColumn.Inside.offsets hinside
      change rows.nulls.nonNull ≤ rows.nulls.rows at hle
      show rows.nulls.nonNull ≤ VariableColumn.offsetWidth * rows.offsets.size
      unfold VariableColumn.offsetWidth
      omega

end Column

namespace Machine

section Reads

variable {c : Column} {row start len : Nat}

/-- **A value** of a column that fits. -/
theorem value_eq (h : c.Fits) : value c row = (c.value row).mapError .fault := by
  have hinside := h.inside
  have hplaced := h.placed
  cases c with
  | fixed rows stage attributes => exact fixedValue_eq hinside hplaced
  | varying rows stage offsetsStage attributes => exact variableValue_eq hinside hplaced

/-- **A range** of a column that fits. Only the place behind its last value may not be a word. -/
theorem range_eq (h : c.Fits) :
    range c start len =
      if UInt64.size ≤ start + len then .error (.trap .overflow)
      else (c.range start len).mapError .fault := by
  obtain ⟨marks, hmarked⟩ := h.marked
  have hinside := h.inside
  have hplaced := h.placed
  have hwidth := h.width
  cases c with
  | fixed rows stage attributes => exact fixedRange_eq hinside hmarked hplaced (hwidth _ rfl)
  | varying rows stage offsetsStage attributes => exact variableRange_eq hinside hplaced

/-- **A range is read** on a machine if it is on numbers. -/
theorem range_ok_iff (h : c.Fits) :
    (∃ bs, range c start len = .ok bs) ↔ ∃ bs, c.range start len = .ok bs := by
  rw [range_eq h]
  by_cases hword : UInt64.size ≤ start + len
  · have hpast : c.nonNull < start + len := Nat.lt_of_lt_of_le h.nonNull_lt hword
    rw [if_pos hword, Column.range_past hpast]
    simp
  · rw [if_neg hword]
    cases c.range start len with
    | error e => simp [Except.mapError]
    | ok bs => exact iff_of_true ⟨bs, rfl⟩ ⟨bs, rfl⟩

/-- **A range past the values** is refused, or the place behind it is not a word. -/
theorem range_past (h : c.Fits) (hpast : c.nonNull < start + len) :
    range c start len =
      if UInt64.size ≤ start + len then .error (.trap .overflow)
      else .error (.fault .rangePastValues) := by
  rw [range_eq h, Column.range_past hpast]
  rfl

end Reads

end Machine

/-! ## (5) Decoding -/

namespace Codec

/-- **The octets that are asked for** at once for a stream: as many as were recorded, or those of
some integers and of what they are laid into. -/
def asked (codec : Codec) (src : Bytes) (count length total : Nat) : Nat :=
  match codec with
  | .runLength _ | .delta => max (codec.integersAsked src count) total
  | _ => length

/-- **The octets that are asked for** at once for values of any length. Those of a dictionary are
added to as much room as was recorded, which is at most doubled for them. -/
def valuesAsked (codec : Codec) (src : Bytes) (length : Nat) : Nat :=
  match codec with
  | .dictionary =>
    let made := (Dictionary.expand src).2.length
    if made ≤ length then length else max length (2 * made)
  | _ => length

end Codec

namespace Column

variable {spec : ColumnSpec} {format : StorageFormat} {nulls : Nulls} {marks : List Bool}
  {width : Nat}

/-- **The octets that slots or offsets take** of rows with given marks. -/
def extent (spec : ColumnSpec) (format : StorageFormat) (marks : List Bool) : Nat :=
  match spec.kind.fixedWidth with
  | some width =>
    match format with
    | .dense => marks.countP id * width
    | .padded => marks.length * width
  | none => (marks.length + 1) * VariableColumn.offsetWidth

/-- The extent of a column of fixed width is that of its slots. -/
theorem extent_fixed (hmarked : nulls.Marked marks) (hwidth : spec.kind.fixedWidth = some width) :
    extent spec format marks = FixedColumn.slots format nulls * width := by
  rw [extent, hwidth, ← hmarked.nonNull, ← hmarked.rows]
  cases format <;> rfl

/-- The extent of a column of varying width is that of its offsets. -/
theorem extent_varying (hmarked : nulls.Marked marks) (hwidth : spec.kind.fixedWidth = none) :
    extent spec format marks = (nulls.rows + 1) * VariableColumn.offsetWidth := by
  rw [extent, hwidth, hmarked.rows]

/-- **What a machine can decode**: the places of slots or of offsets are words, and there is memory
for what is asked for at once, with the codecs that were recorded. -/
structure Affordable (spec : ColumnSpec) (format : StorageFormat) (encoding : ColumnEncoding)
    (marks : List Bool) (streams : ColumnStreams) : Prop where
  extent : extent spec format marks < UInt64.size
  fixed : spec.kind.fixedWidth.isSome → ∀ codec, Codec.forReading encoding.data true = .ok codec →
    codec.asked streams.data (marks.countP id) encoding.length (Column.extent spec format marks) ≤
      Machine.limit
  values : spec.kind.fixedWidth = none → streams.offsets.isSome →
    ∀ codec, Codec.forReading encoding.data false = .ok codec →
      codec.valuesAsked streams.data encoding.length ≤ Machine.limit
  offsets : spec.kind.fixedWidth = none → ∀ src, streams.offsets = some src →
    ∀ codec, Codec.forReading encoding.offsets false = .ok codec →
      codec.asked src (marks.length + 1) encoding.offsetsLength (Column.extent spec format marks) ≤
        Machine.limit

/-- **A decoded column** has the slots or the offsets of its rows, and fits if those take few enough
octets. -/
theorem fits_of_decode [BlockLibrary] {encoding : ColumnEncoding} {rows : Nat}
    {streams : ColumnStreams} {c : Column} (h : decode spec format encoding rows streams = .ok c)
    (hfits : extent spec format (Nulls.marksOf streams.present rows) < UInt64.size) : c.Fits := by
  obtain ⟨-, hwidth, hmarked, hinside⟩ := decode_ok h
  refine ⟨hinside, ⟨_, hmarked⟩, fun width hsome => Kind.fixedWidth_pos (hwidth ▸ hsome), ?_⟩
  obtain ⟨nulls, hnulls, ⟨data, rows', codec, -, hdata, rfl⟩ |
    ⟨data, offsets, toast, rows', codec, offsetsCodec, -, -, -, hdata, rfl⟩⟩ := decode_cases h
  · obtain ⟨hfixed, -, -, -, hsize⟩ := FixedColumn.ofData_ok hdata
    rwa [extent_fixed hnulls hfixed, ← hsize] at hfits
  · obtain ⟨hvarying, -, -, -, -, hcount, -⟩ := VariableColumn.ofData_ok hdata
    rwa [extent_varying hnulls hvarying, ← hcount, Array.length_toList, Nat.mul_comm] at hfits

end Column

namespace Machine

section Decoding

variable {spec : ColumnSpec} {format : StorageFormat} {nulls : Nulls} {marks : List Bool}
  {width : Nat} {data : Bytes}

/-- What there is memory for is a word. -/
theorem lt_size_of_le_limit {n : Nat} (h : n ≤ limit) : n < UInt64.size :=
  Nat.lt_of_le_of_lt h (by decide)

/-- **Slots** are counted by a product. -/
theorem fixedOfData_guards (hwidth : spec.kind.fixedWidth = some width) :
    Guards (FixedColumn.slots format nulls * width < UInt64.size)
      (fixedOfData spec format data nulls)
      (FixedColumn.ofData spec format data nulls) := by
  unfold fixedOfData
  cases hnew : FixedColumn.new spec format with
  | error e =>
      rw [FixedColumn.ofData, hnew]
      exact guards_error e
  | ok c =>
      obtain rfl : c.width = width :=
        Option.some.inj ((FixedColumn.new_spec hnew).width_eq.symm.trans hwidth)
      exact (guards_mul _ _ (guards_self _)).congr (and_iff_left trivial)

/-- **Integers** are laid into slots that there is memory for. -/
theorem fixedOfInts_guards {values : List Int64} (hwidth : spec.kind.fixedWidth = some width) :
    Guards (FixedColumn.slots format nulls * width ≤ limit) (fixedOfInts spec format values nulls)
      (FixedColumn.ofInts spec format values nulls) := by
  unfold fixedOfInts
  by_cases hcount : values.length = nulls.nonNull
  · rw [if_neg (not_not_intro hcount), hwidth, Option.getD_some]
    refine (guards_mul _ _ (guards_allocate _ (guards_self _))).congr ?_
    exact ⟨fun h => h.2.1, fun h => ⟨lt_size_of_le_limit h, h, trivial⟩⟩
  · rw [if_pos hcount, FixedColumn.ofInts, if_pos hcount]
    exact guards_error _

/-- **Offsets** are counted by a sum and a product. -/
theorem variableOfData_guards {offsetBytes : Bytes} {toast : Option Bitmap} :
    Guards ((nulls.rows + 1) * VariableColumn.offsetWidth < UInt64.size)
      (variableOfData spec format data offsetBytes nulls toast)
      (VariableColumn.ofData spec format data offsetBytes nulls toast) := by
  unfold variableOfData
  cases hnew : VariableColumn.new spec format with
  | error e =>
      rw [VariableColumn.ofData, hnew]
      exact guards_error e
  | ok c =>
      refine (guards_add _ _ (guards_mul _ _ (guards_self _))).congr ?_
      refine ⟨fun h => h.2.1, fun h => ⟨?_, h, trivial⟩⟩
      exact Nat.lt_of_le_of_lt (Nat.le_mul_of_pos_right _ (by decide)) h

variable [BlockLibrary] {encoding : ColumnEncoding} {src offsetsSrc : Bytes} {toast : Option Bitmap}
  {codec : Codec} {length rows : Nat}

omit [BlockLibrary] in
/-- **The integers of the rows that are not null**, with or without a bitmap, laid into slots. -/
theorem intsOf_guards (format : StorageFormat) (hmarked : nulls.Marked marks)
    (hwidth : spec.kind.fixedWidth = some width) (codec : Codec) (src : Bytes) :
    Guards (codec.integersAsked src nulls.nonNull ≤ limit ∧
      FixedColumn.slots format nulls * width ≤ limit)
      (intsOf codec src nulls >>= fun values => fixedOfInts spec format values nulls)
      (match nulls.bitmap with
        | some notNull => codec.decodeNotNull src notNull >>= fun values =>
          FixedColumn.ofInts spec format values nulls
        | none => codec.decodeInts src nulls.rows >>= fun values =>
          FixedColumn.ofInts spec format values nulls) := by
  unfold intsOf
  cases hbitmap : nulls.bitmap with
  | none =>
      rw [hmarked.nonNull_of_none hbitmap]
      exact (decodeInts_guards codec src nulls.rows).bind fun values _ => fixedOfInts_guards hwidth
  | some notNull =>
      have hcount : notNull.count = nulls.nonNull := by
        rw [hmarked.bitmap _ hbitmap, Bitmap.count_ofList, hmarked.nonNull]
      rw [← hcount]
      exact (decodeNotNull_guards codec src (hmarked.tidy hbitmap).1).bind fun values _ =>
        fixedOfInts_guards hwidth

/-- However a column of fixed width is encoded, its slots are counted in the end. -/
theorem decodeFixed_guards (hmarked : nulls.Marked marks)
    (hwidth : spec.kind.fixedWidth = some width) :
    Guards
      (FixedColumn.slots format nulls * width < UInt64.size ∧
        ∀ codec, Codec.forReading encoding.data true = .ok codec →
          codec.asked src nulls.nonNull encoding.length
            (FixedColumn.slots format nulls * width) ≤ limit)
      (decodeFixed spec format encoding src nulls)
      (Column.decodeFixed spec format encoding src nulls) := by
  refine guards_bind fun codec hcodec => ?_
  rw [← forall_ok_iff (P := fun codec => codec.asked src nulls.nonNull encoding.length
    (FixedColumn.slots format nulls * width) ≤ limit) hcodec]
  have hints := (intsOf_guards format hmarked hwidth codec src).map
    fun rows => Column.fixed rows (Stage.read codec encoding.data) []
  cases codec with
  | runLength signed | delta =>
      simp only [← bind_assoc]
      refine Guards.congr hints ?_
      rw [Codec.asked, Nat.max_le]
      exact (and_iff_right_of_imp fun h => lt_size_of_le_limit h.2).symm
  | plain | block _ _ | dictionary =>
      simp only [← bind_assoc]
      refine (((decodeBytes_guards _ src _).bind fun data _ =>
        fixedOfData_guards hwidth).map _).congr ?_
      exact And.comm

omit [BlockLibrary] in
/-- The values of a dictionary in a new buffer. -/
theorem used_expandInto (src : Bytes) (length : Nat) :
    (Dictionary.expandInto src (Buffer.ofCapacity length)).1 = (Dictionary.expand src).1 ∧
      (Dictionary.expandInto src (Buffer.ofCapacity length)).2.committed =
        (Dictionary.expand src).2 ∧
      (Dictionary.expandInto src (Buffer.ofCapacity length)).2.used =
        (Dictionary.expand src).2.length := by
  have hnew : (Buffer.ofCapacity length).Ordered := ⟨Nat.le_refl 0, Nat.zero_le _⟩
  obtain ⟨hresult, hadds⟩ := Dictionary.expandInto_spec src hnew
  have hcommitted := hadds.committed
  rw [show (Buffer.ofCapacity length).committed = [] from rfl, List.nil_append] at hcommitted
  refine ⟨hresult, hcommitted, ?_⟩
  rw [← hcommitted, Buffer.committed, List.length_take_of_le hadds.ordered.2]

/-- **A dictionary** is expanded into as much room as was recorded of its values; if they take more,
they are refused when they are there. -/
theorem decodeDictionary_guards (src : Bytes) (length : Nat) :
    Guards (Codec.dictionary.valuesAsked src length ≤ limit) (decodeValues .dictionary src length)
      (Column.decodeValues .dictionary src length) := by
  rw [Codec.valuesAsked, Column.decodeValues]
  obtain ⟨hresult, hcommitted, hused⟩ := used_expandInto src length
  -- if there is no memory for what was recorded, nothing is read
  by_cases hlength : length ≤ limit
  · have hnew := backed_ofCapacity hlength
    simp only [decodeValues, allocate_eq hlength, ok_bind]
    constructor
    · intro hfits
      -- otherwise the buffer, doubled at most, takes what the dictionary expands to
      have haffords : (Buffer.ofCapacity length).Affords (Dictionary.expand src).2.length := by
        refine ⟨hnew, ?_⟩
        rw [show (Buffer.ofCapacity length).capacity = length from List.length_replicate]
        split at hfits <;> omega
      rw [expandInto_eq haffords (Nat.le_of_eq (Nat.zero_add _)), Attempt.result, hresult]
      generalize Dictionary.expandInto src (Buffer.ofCapacity length) = into at hcommitted hused
      generalize Dictionary.expand src = expanded at hcommitted hused ⊢
      obtain ⟨outcome, values⟩ := expanded
      cases outcome with
      | error e => rfl
      | ok _ =>
          show (if into.2.used ≠ length then _ else _) = _
          rw [hused, hcommitted]
          dsimp only
          split <;> rfl
    · intro hnot
      -- more than that is a length that was not recorded, so no column comes of it either way
      have hmore : (Dictionary.expand src).2.length ≠ length := by
        split at hnot <;> omega
      cases hrun : expandInto src (Buffer.ofCapacity length) with
      | error stop =>
          cases stop with
          | fault e => exact .inr ⟨e, rfl⟩
          | trap t => exact .inl ⟨t, rfl⟩
      | ok out =>
          rw [expandInto_ok hnew hrun] at hused
          refine .inr ⟨.dictionaryExpansion, ?_⟩
          rw [ok_bind, if_pos (by rw [hused]; exact hmore)]
          rfl
  · refine ⟨fun hfits => absurd ?_ hlength, fun _ => .inl ⟨.capacity, ?_⟩⟩
    · split at hfits <;> omega
    · simp only [decodeValues, allocate_capacity (Nat.not_le.mp hlength), error_bind]

/-- **The values** of a column of variable length. -/
theorem decodeValues_guards (codec : Codec) (src : Bytes) (length : Nat) :
    Guards (codec.valuesAsked src length ≤ limit) (decodeValues codec src length)
      (Column.decodeValues codec src length) := by
  cases codec with
  | dictionary => exact decodeDictionary_guards src length
  | plain => exact decodeBytes_guards .plain src length
  | runLength signed => exact decodeBytes_guards (.runLength signed) src length
  | delta => exact decodeBytes_guards .delta src length
  | block kind level => exact decodeBytes_guards (.block kind level) src length

omit [BlockLibrary] in
/-- Offsets that are read as integers are laid into octets, for which memory is asked for. -/
theorem packOffsets_guards (codec : Codec) (src : Bytes) (rows : Nat) :
    Guards (max (codec.integersAsked src (rows + 1)) ((rows + 1) * VariableColumn.offsetWidth) ≤
      limit)
      (do
        let count ← add rows 1
        let numbers ← decodeInts codec src count
        let octets ← mul numbers.length VariableColumn.offsetWidth
        allocate octets
        (Column.packOffsets numbers).mapError .fault)
      (codec.decodeInts src (rows + 1) >>= Column.packOffsets) := by
  have hpack : ∀ numbers, codec.decodeInts src (rows + 1) = .ok numbers →
      Guards ((rows + 1) * VariableColumn.offsetWidth ≤ limit)
        (do
          let octets ← mul numbers.length VariableColumn.offsetWidth
          allocate octets
          (Column.packOffsets numbers).mapError .fault)
        (Column.packOffsets numbers) := by
    intro numbers hnumbers
    rw [length_of_decodeInts hnumbers]
    refine (guards_mul _ _ (guards_allocate _ (guards_self _))).congr ?_
    exact ⟨fun h => h.2.1, fun h => ⟨lt_size_of_le_limit h, h, trivial⟩⟩
  refine (guards_add _ _ ((decodeInts_guards codec src (rows + 1)).bind hpack)).congr ?_
  rw [Nat.max_le]
  refine and_iff_right_of_imp fun h => lt_size_of_le_limit (Nat.le_trans ?_ h.2)
  exact Nat.le_mul_of_pos_right _ (by decide)

/-- **Offsets** are octets, or integers that are laid into octets. -/
theorem decodeOffsets_guards (codec : Codec) (src : Bytes) (length rows : Nat) :
    Guards (codec.asked src (rows + 1) length ((rows + 1) * VariableColumn.offsetWidth) ≤ limit)
      (decodeOffsets codec src length rows) (Column.decodeOffsets codec src length rows) := by
  cases codec with
  | runLength signed => exact packOffsets_guards (.runLength signed) src rows
  | delta => exact packOffsets_guards .delta src rows
  | plain => exact decodeBytes_guards .plain src length
  | dictionary => exact decodeBytes_guards .dictionary src length
  | block kind level => exact decodeBytes_guards (.block kind level) src length

/-- However the streams of a column of variable length are encoded, its offsets are counted in the
end. -/
theorem decodeVariable_guards :
    Guards
      ((nulls.rows + 1) * VariableColumn.offsetWidth < UInt64.size ∧
        (∀ codec, Codec.forReading encoding.data false = .ok codec →
          codec.valuesAsked src encoding.length ≤ limit) ∧
        ∀ codec, Codec.forReading encoding.offsets false = .ok codec →
          codec.asked offsetsSrc (nulls.rows + 1) encoding.offsetsLength
            ((nulls.rows + 1) * VariableColumn.offsetWidth) ≤ limit)
      (decodeVariable spec format encoding src offsetsSrc nulls toast)
      (Column.decodeVariable spec format encoding src offsetsSrc nulls toast) := by
  refine guards_bind fun codec hcodec => ?_
  rw [← forall_ok_iff (P := fun codec => codec.valuesAsked src encoding.length ≤ limit) hcodec]
  refine Guards.congr ?_ and_left_comm
  refine (decodeValues_guards codec src encoding.length).bind fun data _ =>
    guards_bind fun offsetsCodec hoffsets => ?_
  rw [← forall_ok_iff (P := fun codec =>
    codec.asked offsetsSrc (nulls.rows + 1) encoding.offsetsLength
    ((nulls.rows + 1) * VariableColumn.offsetWidth) ≤ limit) hoffsets]
  exact ((decodeOffsets_guards offsetsCodec offsetsSrc _ nulls.rows).bind fun offsets _ =>
    variableOfData_guards.map _).congr And.comm

/-- **Decoding** does on a machine what it does on numbers if places are words and there is memory
for what is asked for, and lets nothing through otherwise. -/
theorem decode_guards (spec : ColumnSpec) (format : StorageFormat) (encoding : ColumnEncoding)
    (rows : Nat) (streams : ColumnStreams) :
    Guards (Column.Affordable spec format encoding (Nulls.marksOf streams.present rows) streams)
      (decode spec format encoding rows streams)
        (Column.decode spec format encoding rows streams) := by
  refine guards_bind fun bitmap hbitmap => guards_bind fun nulls hnulls => ?_
  have hmarked := Column.ofBitmap_marked hbitmap hnulls
  cases hwidth : spec.kind.fixedWidth with
  -- slots are counted for columns of fixed width, offsets for the others
  | some width =>
      refine (decodeFixed_guards hmarked hwidth).congr ?_
      rw [← Column.extent_fixed hmarked hwidth, hmarked.nonNull]
      constructor
      · exact fun h =>
          ⟨h.1, fun _ => h.2, fun hnone => absurd (hwidth.symm.trans hnone) (Option.some_ne_none _),
          fun hnone => absurd (hwidth.symm.trans hnone) (Option.some_ne_none _)⟩
      · exact fun h => ⟨h.extent, h.fixed (Option.isSome_of_eq_some hwidth)⟩
  | none =>
      cases hoffsets : streams.offsets with
      | none => exact guards_error _
      | some offsets =>
          refine guards_bind fun toast _ => decodeVariable_guards.congr ?_
          rw [← Column.extent_varying hmarked hwidth, hmarked.rows]
          constructor
          · refine fun h => ⟨h.1, fun hsome => ?_, fun _ _ => h.2.1, fun _ src hsrc => ?_⟩
            · rw [hwidth] at hsome
              cases hsome
            · cases hoffsets.symm.trans hsrc
              exact h.2.2
          · exact fun h => ⟨h.extent, h.values hwidth (Option.isSome_of_eq_some hoffsets),
              h.offsets hwidth offsets hoffsets⟩

/-- **Columns of any streams.** Whatever is decoded as a column, with any description, encodings,
count of rows and streams: where the places of slots or of offsets are no words, or more memory is
asked for at once than there can be, nothing is let through, but the program may stop if nothing
else is at fault before. Otherwise the streams are refused, or give a column with as many rows as
were asked for. Every one of them can be read; it is null exactly when there is a stream of bits in
which its bit is not set, and has the width of its kind, if that is fixed. A range is read exactly
when there are as many values; one that goes past them is refused, or stops the program if the place
behind it is not a word. -/
theorem decode_refused_or_read (spec : ColumnSpec) (format : StorageFormat)
    (encoding : ColumnEncoding) (rows : Nat) (streams : ColumnStreams) :
    (¬ Column.Affordable spec format encoding (Nulls.marksOf streams.present rows) streams ∧
      ((∃ t, decode spec format encoding rows streams = .error (.trap t)) ∨
        ∃ e, decode spec format encoding rows streams = .error (.fault e))) ∨
    Column.Affordable spec format encoding (Nulls.marksOf streams.present rows) streams ∧
      ((∃ e, decode spec format encoding rows streams = .error (.fault e)) ∨
        ∃ c, decode spec format encoding rows streams = .ok c ∧ c.kind = spec.kind ∧ c.rows = rows ∧
          (∀ row < rows, ∃ v, value c row = .ok v ∧
            (v = none ↔ ∃ bits, streams.present = some bits ∧ bits.bitAt row = false) ∧
            ∀ bs, v = some bs → ∀ width, spec.kind.fixedWidth = some width → bs.length = width) ∧
          (∀ start len, (∃ bs, range c start len = .ok bs) ↔ start + len ≤ c.nonNull) ∧
          (∀ start len, c.nonNull < start + len → range c start len =
            if UInt64.size ≤ start + len then .error (.trap .overflow)
            else .error (.fault .rangePastValues)) ∧
          c.Inside) := by
  have hguards := decode_guards spec format encoding rows streams
  by_cases hfits : Column.Affordable spec format encoding
    (Nulls.marksOf streams.present rows) streams
  · refine .inr ⟨hfits, ?_⟩
    -- with enough memory the column is that of the numbers, and its reads go through
    rw [hguards.agrees hfits]
    obtain ⟨e, he⟩ | ⟨c, hc, hkind, hrows, hvalue, hrange, hinside⟩ :=
      Column.decode_safe spec format encoding rows streams
    · rw [he]
      exact .inl ⟨e, rfl⟩
    · have hc' := Column.fits_of_decode hc hfits.extent
      refine .inr ⟨c, by rw [hc]; rfl, hkind, hrows, ?_, ?_, ?_, hinside⟩
      · intro row hrow
        obtain ⟨v, hv, hnone, hlength⟩ := hvalue row hrow
        exact ⟨v, by rw [value_eq hc', hv]; rfl, hnone, hlength⟩
      · exact fun start len => (range_ok_iff hc').trans (hrange start len)
      · exact fun start len hpast => range_past hc' hpast
  · exact .inl ⟨hfits, hguards.stops hfits⟩

omit [BlockLibrary] in
/-- Texts without offsets, in so many rows that their number is a quarter of a word: the octets of
the offsets are not refused, but the program stops. -/
example : @decode .verbatim (.ofKind "note" .string) .padded {} (2 ^ 62 - 1)
    { offsets := some [] } =
    .error (.trap .overflow) := rfl

omit [BlockLibrary] in
/-- No rows of integers, of which a file says that they take as many octets as the half of all
words: the memory for them is not there. -/
example : @decode .verbatim (.ofKind "note" .int) .padded
    { data := { kind := .plain }, length := 2 ^ 63 } 0 {} =
    .error (.trap .capacity) := rfl

end Decoding

end Machine

/-! ## (6) Columns that calls lead to -/

namespace Column

variable [BlockLibrary] {spec : ColumnSpec} {format : StorageFormat} {c : Column}
  {cells : List Cell}

/-- **A column that holds cells** fits a machine if it takes fewer octets than a word can count. -/
theorem Holds.fits (hc : c.Holds spec format cells) (hsize : c.size < UInt64.size) : c.Fits := by
  have hmarked : c.nulls.Marked (cells.map Cell.notNull) := hc.nulls_eq ▸ Nulls.marked_ofMarks _
  have hplaced := Nat.lt_of_le_of_lt c.placed_le_size hsize
  cases hc with
  | @fixed rows _ _ _ _ _ hrows _ _ =>
      refine ⟨FixedColumn.ofData_inside hmarked (FixedColumn.ofData_spec hrows), ⟨_, hmarked⟩,
        ?_, hplaced⟩
      intro width hwidth
      cases hwidth
      exact Kind.fixedWidth_pos hrows.width_eq
  | @varying rows _ _ _ _ _ _ hrows _ _ =>
      have htidy : ∀ b, rows.toast = some b → b.Tidy := by
        intro b hb
        rw [hrows.toast_eq, VariableColumn.toastOf] at hb
        split at hb
        · cases hb
          exact Bitmap.tidy_ofList _
        · cases hb
      -- what is stored out of line is not read
      have hback := VariableColumn.ofData_inside hmarked htidy (VariableColumn.ofData_spec hrows)
      have hinside : rows.Inside :=
        ⟨hback.bitmap, hback.toast, hback.offsets, hback.first, hback.ascend, hback.last,
        hback.ends⟩
      refine ⟨hinside, ⟨_, hmarked⟩, ?_, hplaced⟩
      intro width hwidth
      cases hwidth

end Column

namespace Machine

variable [BlockLibrary] {spec : ColumnSpec} {format : StorageFormat} {c : Column}
  {contents : List (Option Bytes)} {outside : Bytes}

/-- **A column reads as a list** of stored values: row by row, and a range at a time. A range past
the values is refused, or stops the program if the place behind it is not a word. -/
structure Reads (c : Column) (contents : List (Option Bytes)) : Prop where
  value : ∀ row v, contents[row]? = some v → Machine.value c row = .ok v
  pastRows : ∀ row, contents.length ≤ row →
    Machine.value c row = .error (.fault (.rowOutOfRange row contents.length))
  range : ∀ start len, start + len ≤ c.nonNull →
    Machine.range c start len = .ok (((contents.filterMap id).drop start).take len).flatten
  pastValues : ∀ start len, c.nonNull < start + len → start + len < UInt64.size →
    Machine.range c start len = .error (.fault .rangePastValues)
  pastWords : ∀ start len, UInt64.size ≤ start + len →
    Machine.range c start len = .error (.trap .overflow)

omit [BlockLibrary] in
/-- What a column shows of a list on numbers, it shows on a machine that it fits. -/
theorem reads_of_refines (h : c.Fits) (hrefines : c.Refines contents) : Reads c contents := by
  refine ⟨?_, ?_, ?_, ?_, ?_⟩
  · intro row v hrow
    rw [value_eq h, hrefines.value row v hrow]
    rfl
  · intro row hrow
    rw [value_eq h, hrefines.pastRows row hrow]
    rfl
  · intro start len hle
    have hword : ¬ UInt64.size ≤ start + len := Nat.not_le.mpr (Nat.lt_of_le_of_lt hle h.nonNull_lt)
    rw [range_eq h, if_neg hword, hrefines.range start len hle]
    rfl
  · intro start len hpast hword
    rw [range_past h hpast, if_neg (Nat.not_le.mpr hword)]
  · intro start len hword
    rw [range_eq h, if_pos hword]

/-- **Columns read as lists of optional values.** Whatever successful steps of growth lead to a
column, in any storage format and with any encodings, and whenever its encoded streams are asked for
in between: its rows, its values and its bitmap are those of the list that the steps made, the
references in that list count the octets that the column stores out of line, and if the column takes
fewer octets than a word can count, it is read as that list, except that a range whose end is not a
word stops the program. -/
theorem called_reads (h : Column.Called spec format c contents outside) :
    c.Refines contents ∧ c.external = outside ∧ (c.size < UInt64.size → Reads c contents) := by
  obtain ⟨cells, hcells, -, -⟩ := h.holds
  obtain ⟨hrefines, houtside⟩ := Column.refines_contents h
  exact ⟨hrefines, houtside, fun hsize => reads_of_refines (hcells.fits hsize) hrefines⟩

omit [BlockLibrary] in
/-- Texts with a null row between them and one at the end; the dictionary that the first of them was
asked for in gives way, and the second is stored out of line. The range of one value from the last
word on has no word behind it. -/
theorem called_reads_texts :
    ∃ c, @Column.Called .verbatim (.ofKind "note" .string) .padded c
        [some [7], none, some (Column.reference [] [5, 6]), some [], none] [5, 6] ∧
      c.Refines [some [7], none, some (Column.reference [] [5, 6]), some [], none] ∧
      c.external = [5, 6] ∧
      Reads c [some [7], none, some (Column.reference [] [5, 6]), some [], none] ∧
      range c 3 1 = .error (.fault .rangePastValues) ∧
      range c (UInt64.size - 1) 1 = .error (.trap .overflow) := by
  let _ : BlockLibrary := .verbatim
  have hnew : Column.Called (.ofKind "note" .string) .padded _ [] [] :=
    .new { kind := .dictionary } {} [] rfl
  have hasked := ((hnew.append [7] rfl).appendNull rfl).encodeData
  have hcalled := (((hasked.appendToast [5, 6] rfl).append [] rfl).encodeOffsets).setRows 5 rfl
  obtain ⟨hrefines, houtside, hreads⟩ := called_reads hcalled
  have hreads' := hreads (by decide +kernel)
  exact ⟨_, hcalled, hrefines, houtside, hreads',
    hreads'.pastValues 3 1 (by decide +kernel) (by decide), hreads'.pastWords _ 1 (by decide)⟩

end Machine

end ColumnFile
