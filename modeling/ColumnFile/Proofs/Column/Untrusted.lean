import ColumnFile.Column.Decode
import ColumnFile.Proofs.Column.Fixed
import ColumnFile.Proofs.Column.Marked
import ColumnFile.Proofs.Column.Variable

/-! # Columns of streams that no one vouches for

The count of rows, the bitmap, the offsets, the lengths and the encodings of a column come from a
file, and may disagree in any way. What decoding lets through is sound: it has the rows that were
asked for, each of them can be read, and nothing that is read lies outside of the buffers.

* `Nulls.marksOf` — the marks that a stream of bits stands for.
* **`FixedColumn.Inside`**, **`VariableColumn.Inside`** — columns whose reads stay inside their
  buffers.
* **`FixedColumn.ofData_inside`**, **`VariableColumn.ofData_inside`** — columns that were rebuilt.
* **`Column.decode_safe`** — columns that were decoded. -/

namespace ColumnFile

/-! ## (1) Null rows -/

namespace Nulls

variable {row : Nat}

/-- The marks of a stream of bits, or of no stream. -/
def marksOf (present : Option Bytes) (rows : Nat) : List Bool :=
  match present with
  | none => List.replicate rows true
  | some bits => (List.range rows).map bits.bitAt

/-- There are as many marks as rows. -/
theorem length_marksOf (present : Option Bytes) (rows : Nat) :
    (marksOf present rows).length = rows := by
  cases present with
  | none => exact List.length_replicate
  | some bits => rw [marksOf, List.length_map, List.length_range]

/-- A mark is not set if its bit is not. -/
theorem getElem_marksOf {present : Option Bytes} {rows : Nat}
    (h : row < (marksOf present rows).length) :
    (marksOf present rows)[row] = false ↔ ∃ bits, present = some bits ∧ bits.bitAt row = false := by
  cases present with
  | none => simp [marksOf]
  | some bits => simp [marksOf]

end Nulls

namespace Column

variable {present stream : Option Bytes} {rows : Nat} {short : Fault} {bitmap : Option Bitmap}

/-- **A stream of bits** that is long enough gives a bitmap with a bit for each row. -/
theorem decodeBitmap_ok (h : decodeBitmap stream rows short = .ok bitmap) :
    bitmap = stream.map fun bits => Bitmap.ofList ((List.range rows).map bits.bitAt) := by
  cases stream with
  | none =>
      cases h
      rfl
  | some bits =>
      rw [decodeBitmap, Bitmap.ofBytes?_eq] at h
      split at h
      · cases h
      · rename_i hsome
        split at hsome
        · cases hsome
        · cases h
          exact hsome.symm

/-- **The null rows** that a stream of bits gives. -/
theorem ofBitmap_marked {t : Nulls} (hbitmap : decodeBitmap present rows short = .ok bitmap)
    (h : Nulls.ofBitmap rows bitmap = .ok t) : t.Marked (Nulls.marksOf present rows) := by
  rw [decodeBitmap_ok hbitmap] at h
  cases present with
  | none => exact Nulls.marked_of_rows h
  | some bits => exact Nulls.marked_of_bits h

end Column

/-! ## (2) Columns of fixed width -/

namespace FixedColumn

variable {c : FixedColumn} {spec : ColumnSpec} {format : StorageFormat} {data : Bytes}
  {nulls : Nulls}
  {marks : List Bool} {row start len : Nat}

/-- **Reads stay inside**: the bitmap has a bit for each row and no other, and the data are the
slots; the slot of every value is among them; so is a run of values in dense storage, and in padded
storage all slots from the row of the first value of a range to that of its last. -/
structure Inside (c : FixedColumn) : Prop where
  bitmap : ∀ b, c.nulls.bitmap = some b → b.Tidy ∧ b.len = c.nulls.rows
  size : c.data.size = slots c.format c.nulls * c.width
  slot : ∀ row < c.nulls.rows, c.nulls.isNull row = false →
    (c.slotOf row + 1) * c.width ≤ c.data.size
  run : c.format = .dense → ∀ start len, start + len ≤ c.nulls.nonNull →
    (start + len) * c.width ≤ c.data.size
  ends : c.format = .padded → ∀ start len, len ≠ 0 → start + len ≤ c.nulls.nonNull →
    ∃ first last, c.nulls.rowOfDense start = some first ∧
    c.nulls.rowOfDense (start + len - 1) = some last ∧
      first ≤ last ∧ (last + 1) * c.width ≤ c.data.size

/-- **What was checked** of the slots of a column. -/
theorem ofData_ok (h : ofData spec format data nulls = .ok c) :
    spec.kind.fixedWidth = some c.width ∧ c.kind = spec.kind ∧ c.format = format ∧ c.nulls = nulls ∧
      c.data.size = slots format nulls * c.width := by
  unfold ofData at h
  obtain ⟨new, hnew, h⟩ := bind_eq_ok h
  have hspec := new_spec hnew
  dsimp only at h
  split at h
  · cases h
  · rename_i hlength
    cases h
    exact ⟨hspec.width_eq, hspec.kind_eq, hspec.format_eq, rfl, Decidable.not_not.mp hlength⟩

/-- **A column that was rebuilt** from slots is read inside of them. -/
theorem ofData_inside (hmarked : nulls.Marked marks) (h : ofData spec format data nulls = .ok c) :
    c.Inside := by
  obtain ⟨-, -, hformat, hnulls, hsize⟩ := ofData_ok h
  subst hformat hnulls
  refine ⟨fun b hb => hmarked.tidy hb, hsize, ?_, ?_, ?_⟩
  · intro row hrow hnull
    rw [hsize]
    refine Nat.mul_le_mul_right _ ?_
    unfold slotOf slots
    cases c.format with
    | dense => exact hmarked.denseIndex_lt hrow hnull
    | padded => exact hrow
  · intro hdense start len hle
    rw [hsize, hdense]
    exact Nat.mul_le_mul_right _ hle
  · intro hpadded start len hlen hle
    obtain ⟨first, hfirst⟩ := hmarked.exists_row (k := start) (by omega)
    obtain ⟨last, hlast⟩ := hmarked.exists_row (k := start + len - 1) (by omega)
    refine ⟨first, last, hfirst, hlast, hmarked.row_le_row (by omega) hfirst hlast, ?_⟩
    rw [hsize, hpadded]
    exact Nat.mul_le_mul_right _
      (hmarked.row_lt_row (by omega) hlast (Nulls.rowOfDense_nonNull c.nulls))

/-- A slot inside the data has the width of a value. -/
theorem length_slot {i : Nat} (h : (i + 1) * c.width ≤ c.data.size) :
    (c.slot i).length = c.width := by
  rw [slot, Array.length_toList, Array.size_extract, Nat.min_eq_left h, Nat.succ_mul,
    Nat.add_sub_cancel_left]

/-- **A row that is there** has a value of the width of the kind, or is null. -/
theorem Inside.value (h : c.Inside) (hrow : row < c.nulls.rows) :
    ∃ value, c.value row = .ok value ∧ (value = none ↔ c.nulls.isNull row = true) ∧
      ∀ bs, value = some bs → bs.length = c.width := by
  rw [FixedColumn.value, Nulls.checkRow, if_pos hrow, ok_bind]
  cases hnull : c.nulls.isNull row with
  | true =>
      refine ⟨none, rfl, by simp, ?_⟩
      intro bs hvalue
      cases hvalue
  | false =>
      refine ⟨_, rfl, by simp, ?_⟩
      intro bs hvalue
      cases hvalue
      exact length_slot (h.slot row hrow hnull)

/-- **A range** is read exactly when there are as many values. -/
theorem Inside.range (h : c.Inside) : (∃ bs, c.range start len = .ok bs) ↔
    start + len ≤ c.nulls.nonNull := by
  rw [FixedColumn.range]
  by_cases hpast : c.nulls.nonNull < start + len
  · rw [if_pos hpast]
    refine iff_of_false ?_ (Nat.not_le.mpr hpast)
    rintro ⟨bs, hok⟩
    cases hok
  · rw [if_neg hpast]
    refine iff_of_true ?_ (Nat.not_lt.mp hpast)
    cases hformat : c.format with
    | dense => exact ⟨_, rfl⟩
    | padded =>
        by_cases hlen : len = 0
        · exact ⟨[], if_pos hlen⟩
        · obtain ⟨first, last, hfirst, hlast, -⟩ :=
            h.ends hformat start len hlen (Nat.not_lt.mp hpast)
          dsimp only
          rw [if_neg hlen, hfirst, hlast]
          exact ⟨_, rfl⟩

end FixedColumn

/-! ## (3) Columns of variable length -/

namespace VariableColumn

variable {c : VariableColumn} {spec : ColumnSpec} {format : StorageFormat}
  {data offsetBytes : Bytes}
  {nulls : Nulls} {toast : Option Bitmap} {marks : List Bool} {row start len : Nat}

/-- **Reads stay inside**: the bitmaps have a bit for each row and no other; there is an offset for
each row and one behind them; they ascend from the start of the data to its end; and a range of
values is between two of them. -/
structure Inside (c : VariableColumn) : Prop where
  bitmap : ∀ b, c.nulls.bitmap = some b → b.Tidy ∧ b.len = c.nulls.rows
  toast : ∀ b, c.toast = some b → b.Tidy ∧ b.len = c.nulls.rows
  offsets : c.offsets.size = c.nulls.rows + 1
  first : c.offset 0 = 0
  ascend : ∀ i j, i ≤ j → j ≤ c.nulls.rows → c.offset i ≤ c.offset j
  last : c.offset c.nulls.rows = c.data.size
  ends : ∀ start len, start + len ≤ c.nulls.nonNull →
    ∃ first last, c.nulls.rowOfDense start = some first ∧
    c.nulls.rowOfDense (start + len) = some last ∧
      first ≤ last ∧ last ≤ c.nulls.rows

/-- There are as many offsets as were asked for. -/
theorem length_parseOffsets (n : Nat) (bs : Bytes) : (parseOffsets n bs).length = n := by
  induction n generalizing bs with
  | zero => rfl
  | succ n ih => rw [parseOffsets, List.length_cons, ih]

/-- Offsets that never descend. -/
theorem pairwise_of_descent? {previous : UInt32} {index : Nat} {offsets : List UInt32}
    (h : descent? previous index offsets = none) : (previous :: offsets).Pairwise (· ≤ ·) := by
  induction offsets generalizing previous index with
  | nil => exact List.pairwise_singleton _ _
  | cons o rest ih =>
      rw [descent?] at h
      split at h
      · cases h
      · rename_i hle
        have hrest := ih h
        rw [UInt32.not_lt] at hle
        refine List.pairwise_cons.mpr ⟨?_, hrest⟩
        intro later hlater
        rcases List.mem_cons.mp hlater with rfl | hlater
        · exact hle
        · exact UInt32.le_trans hle ((List.pairwise_cons.mp hrest).1 later hlater)

/-- **Offsets without a fault** start at zero and ascend. -/
theorem offsetFault?_none {offsets : List UInt32} (h : offsetFault? offsets = none) :
    offsets[0]?.getD 0 = 0 ∧ offsets.Pairwise (· ≤ ·) := by
  cases offsets with
  | nil => exact ⟨rfl, List.Pairwise.nil⟩
  | cons first rest =>
      rw [offsetFault?] at h
      split at h
      · cases h
      · rename_i hzero
        exact ⟨Decidable.not_not.mp hzero, pairwise_of_descent? h⟩

/-- **What was checked** of the streams of a column. -/
theorem ofData_ok (h : ofData spec format data offsetBytes nulls toast = .ok c) :
    spec.kind.fixedWidth = none ∧ c.kind = spec.kind ∧ c.nulls = nulls ∧ c.toast = toast ∧
      (∀ b, toast = some b → b.len = nulls.rows) ∧ c.offsets.toList.length = nulls.rows + 1 ∧
      offsetFault? c.offsets.toList = none ∧ (c.offsets.toList.getLastD 0).toNat = c.data.size := by
  unfold ofData at h
  obtain ⟨new, hnew, h⟩ := bind_eq_ok h
  have hspec := new_spec hnew
  dsimp only at h
  split at h
  · cases h
  split at h
  · cases h
  rename_i hfault
  split at h
  · cases h
  rename_i hlast
  split at h
  · cases h
  rename_i htoast
  cases h
  refine ⟨hspec.width_eq, hspec.kind_eq, rfl, rfl, ?_, length_parseOffsets _ _, ?_, ?_⟩
  · intro b hb
    rw [hb] at htoast
    simpa using htoast
  · exact Option.eq_none_iff_forall_ne_some.mpr hfault
  · rw [Rope.size_eq, Rope.toList_ofBytes]
    exact Decidable.not_not.mp hlast

/-- An offset that is not there is none. -/
theorem offset_eq (c : VariableColumn) (i : Nat) :
    c.offset i = (c.offsets.toList[i]?.getD 0).toNat := by
  rw [offset, Array.getD_eq_getD_getElem?, ← Array.getElem?_toList]

/-- **A column that was rebuilt** from streams is read inside of them. -/
theorem ofData_inside (hmarked : nulls.Marked marks) (htidy : ∀ b, toast = some b → b.Tidy)
    (h : ofData spec format data offsetBytes nulls toast = .ok c) : c.Inside := by
  obtain ⟨-, -, hnulls, htoast, hlen, hcount, hfault, hlast⟩ := ofData_ok h
  obtain ⟨hzero, hascend⟩ := offsetFault?_none hfault
  subst hnulls htoast
  refine ⟨fun b hb => hmarked.tidy hb, fun b hb => ⟨htidy b hb, hlen b hb⟩, hcount, ?_, ?_, ?_, ?_⟩
  · rw [offset_eq, hzero]
    rfl
  · intro i j hij hj
    rcases Nat.lt_or_eq_of_le hij with hlt | rfl
    · have hi' : i < c.offsets.toList.length := by omega
      have hj' : j < c.offsets.toList.length := by omega
      rw [offset_eq, offset_eq, List.getElem?_eq_getElem hi', List.getElem?_eq_getElem hj']
      exact UInt32.le_iff_toNat_le.mp (List.pairwise_iff_getElem.mp hascend i j hi' hj' hlt)
    · exact Nat.le_refl _
  · rw [← hlast, offset_eq, List.getLastD_eq_getLast?, List.getLast?_eq_getElem?, hcount,
      Nat.add_sub_cancel]
  · intro start len hle
    obtain ⟨first, hfirst⟩ := hmarked.exists_row (k := start) (by omega)
    obtain ⟨last, hlast⟩ := hmarked.exists_row hle
    exact ⟨first, last, hfirst, hlast, hmarked.row_le_row (Nat.le_add_right _ _) hfirst hlast,
      hmarked.row_le_row hle hlast (Nulls.rowOfDense_nonNull c.nulls)⟩

/-- **A row that is there** has a value, or is null. -/
theorem Inside.value (hrow : row < c.nulls.rows) :
    ∃ value, c.value row = .ok value ∧ (value = none ↔ c.nulls.isNull row = true) := by
  rw [VariableColumn.value, Nulls.checkRow, if_pos hrow, ok_bind]
  cases hnull : c.nulls.isNull row with
  | true => exact ⟨none, rfl, by simp⟩
  | false => exact ⟨_, rfl, by simp⟩

/-- **A range** is read exactly when there are as many values. -/
theorem Inside.range (h : c.Inside) : (∃ bs, c.range start len = .ok bs) ↔
    start + len ≤ c.nulls.nonNull := by
  rw [VariableColumn.range]
  by_cases hpast : c.nulls.nonNull < start + len
  · rw [if_pos hpast]
    refine iff_of_false ?_ (Nat.not_le.mpr hpast)
    rintro ⟨bs, hok⟩
    cases hok
  · rw [if_neg hpast]
    refine iff_of_true ?_ (Nat.not_lt.mp hpast)
    obtain ⟨first, last, hfirst, hlast, -⟩ := h.ends start len (Nat.not_lt.mp hpast)
    rw [hfirst, hlast]
    exact ⟨_, rfl⟩

end VariableColumn

/-! ## (4) Columns -/

namespace Column

variable [BlockLibrary] {spec : ColumnSpec} {format : StorageFormat} {encoding : ColumnEncoding}
  {src offsetsSrc : Bytes} {nulls : Nulls} {toast : Option Bitmap} {c : Column} {rows : Nat}
  {streams : ColumnStreams}

/-- **Reads of a column** stay inside its buffers. -/
def Inside : Column → Prop
  | fixed rows .. => rows.Inside
  | varying rows .. => rows.Inside

/-- The width of the values of a column, if they have one. -/
def width? : Column → Option Nat
  | fixed rows .. => some rows.width
  | varying .. => none

omit [BlockLibrary] in
/-- Integers that were read are laid into slots. -/
theorem ofInts_ok {read : Except Fault (List Int64)} {rows : FixedColumn}
    (h : (read >>= fun values => FixedColumn.ofInts spec format values nulls) = .ok rows) :
    ∃ data, FixedColumn.ofData spec format data nulls = .ok rows := by
  obtain ⟨values, -, h⟩ := bind_eq_ok h
  unfold FixedColumn.ofInts at h
  split at h
  · cases h
  · exact ⟨_, h⟩

/-- However a column of fixed width is encoded, its slots are checked in the end. -/
theorem decodeFixed_ok (h : decodeFixed spec format encoding src nulls = .ok c) :
    ∃ data rows codec, Codec.forReading encoding.data true = .ok codec ∧
      FixedColumn.ofData spec format data nulls = .ok rows ∧
      c = fixed rows (Stage.read codec encoding.data) [] := by
  unfold decodeFixed at h
  obtain ⟨codec, hcodec, h⟩ := bind_eq_ok h
  have hrows : ∃ rows, (∃ data, FixedColumn.ofData spec format data nulls = .ok rows) ∧
      c = fixed rows (Stage.read codec encoding.data) [] := by
    cases codec with
    | runLength signed | delta =>
        obtain ⟨rows, hrows, h⟩ := bind_eq_ok h
        cases h
        refine ⟨rows, ?_, rfl⟩
        cases hbitmap : nulls.bitmap with
        | none =>
            rw [hbitmap] at hrows
            exact ofInts_ok hrows
        | some b =>
            rw [hbitmap] at hrows
            exact ofInts_ok hrows
    | plain | block _ _ | dictionary =>
        obtain ⟨data, -, h⟩ := bind_eq_ok h
        obtain ⟨rows, hrows, h⟩ := bind_eq_ok h
        cases h
        exact ⟨rows, ⟨data, hrows⟩, rfl⟩
  obtain ⟨rows, ⟨data, hdata⟩, hc⟩ := hrows
  exact ⟨data, rows, _, hcodec, hdata, hc⟩

/-- However the streams of a column of variable length are encoded, they are checked in the end. -/
theorem decodeVariable_ok
    (h : decodeVariable spec format encoding src offsetsSrc nulls toast = .ok c) :
    ∃ data offsets rows codec offsetsCodec, Codec.forReading encoding.data false = .ok codec ∧
      Codec.forReading encoding.offsets false = .ok offsetsCodec ∧
      VariableColumn.ofData spec format data offsets nulls toast = .ok rows ∧
      c = varying rows (Stage.read codec encoding.data)
        (Stage.read offsetsCodec encoding.offsets) [] := by
  unfold decodeVariable at h
  obtain ⟨codec, hcodec, h⟩ := bind_eq_ok h
  obtain ⟨data, -, h⟩ := bind_eq_ok h
  obtain ⟨offsetsCodec, hoffsetsCodec, h⟩ := bind_eq_ok h
  obtain ⟨offsets, -, h⟩ := bind_eq_ok h
  obtain ⟨rows, hrows, h⟩ := bind_eq_ok h
  cases h
  exact ⟨data, offsets, rows, _, _, hcodec, hoffsetsCodec, hrows, rfl⟩

/-- **Decoding** comes down to the rows that are rebuilt from the raw streams, in stages that keep
nothing; their codecs are those of the recorded choices. -/
theorem decode_cases (h : decode spec format encoding rows streams = .ok c) :
    ∃ nulls : Nulls, nulls.Marked (Nulls.marksOf streams.present rows) ∧
      ((∃ data rows' codec, Codec.forReading encoding.data true = .ok codec ∧
          FixedColumn.ofData spec format data nulls = .ok rows' ∧
          c = fixed rows' (Stage.read codec encoding.data) []) ∨
        ∃ data offsets toast rows' codec offsetsCodec, (∀ b, toast = some b → b.Tidy) ∧
          Codec.forReading encoding.data false = .ok codec ∧
          Codec.forReading encoding.offsets false = .ok offsetsCodec ∧
          VariableColumn.ofData spec format data offsets nulls toast = .ok rows' ∧
          c = varying rows' (Stage.read codec encoding.data)
            (Stage.read offsetsCodec encoding.offsets) []) := by
  unfold decode at h
  obtain ⟨bitmap, hbitmap, h⟩ := bind_eq_ok h
  obtain ⟨nulls, hnulls, h⟩ := bind_eq_ok h
  refine ⟨nulls, ofBitmap_marked hbitmap hnulls, ?_⟩
  split at h
  · exact .inl (decodeFixed_ok h)
  · split at h
    · cases h
    · obtain ⟨toast, htoast, h⟩ := bind_eq_ok h
      obtain ⟨data, offsets, rows', codec, offsetsCodec, hcodec, hoffsetsCodec, hdata, hc⟩ :=
        decodeVariable_ok h
      refine .inr ⟨data, offsets, toast, rows', codec, offsetsCodec, ?_, hcodec, hoffsetsCodec,
        hdata, hc⟩
      intro b hb
      rw [decodeBitmap_ok htoast, Option.map_eq_some_iff] at hb
      obtain ⟨bits, -, rfl⟩ := hb
      exact Bitmap.tidy_ofList _

/-- **What decoding lets through**: null rows that are those of the stream of bits, and reads that
stay inside. -/
theorem decode_ok (h : decode spec format encoding rows streams = .ok c) :
    c.kind = spec.kind ∧ c.width? = spec.kind.fixedWidth ∧
      c.nulls.Marked (Nulls.marksOf streams.present rows) ∧ c.Inside := by
  obtain ⟨nulls, hmarked, ⟨data, rows', codec, -, hdata, rfl⟩ |
    ⟨data, offsets, toast, rows', codec, offsetsCodec, htidy, -, -, hdata, rfl⟩⟩ := decode_cases h
  · obtain ⟨hwidth, hkind, -, hnulls', -⟩ := FixedColumn.ofData_ok hdata
    refine ⟨hkind, hwidth.symm, ?_, FixedColumn.ofData_inside hmarked hdata⟩
    show rows'.nulls.Marked _
    rw [hnulls']
    exact hmarked
  · obtain ⟨hwidth, hkind, hnulls', -⟩ := VariableColumn.ofData_ok hdata
    refine ⟨hkind, hwidth.symm, ?_, VariableColumn.ofData_inside hmarked htidy hdata⟩
    show rows'.nulls.Marked _
    rw [hnulls']
    exact hmarked

/-- **Decoding is safe.** Whatever is decoded as a column, with any description, encodings, count of
rows and streams, is refused, or gives a column with as many rows as were asked for. Every one of
them can be read: it is null exactly when there is a stream of bits in which its bit is not set, and
it has the width of its kind, if that is fixed. A range is read exactly when there are as many
values. And nothing that is read, neither slots nor offsets nor what lies between them, is outside
of the buffers. -/
theorem decode_safe (spec : ColumnSpec) (format : StorageFormat) (encoding : ColumnEncoding)
    (rows : Nat) (streams : ColumnStreams) :
    (∃ e, decode spec format encoding rows streams = .error e) ∨
      ∃ c, decode spec format encoding rows streams = .ok c ∧ c.kind = spec.kind ∧ c.rows = rows ∧
        (∀ row < rows, ∃ value, c.value row = .ok value ∧
          (value = none ↔ ∃ bits, streams.present = some bits ∧ bits.bitAt row = false) ∧
          ∀ bs, value = some bs → ∀ width, spec.kind.fixedWidth = some width → bs.length = width) ∧
        (∀ start len, (∃ bs, c.range start len = .ok bs) ↔ start + len ≤ c.nonNull) ∧ c.Inside := by
  cases hdecode : decode spec format encoding rows streams with
  | error e => exact .inl ⟨e, rfl⟩
  | ok c =>
      obtain ⟨hkind, hwidth, hmarked, hinside⟩ := decode_ok hdecode
      have hrows : c.rows = rows := hmarked.rows.trans (Nulls.length_marksOf streams.present rows)
      refine .inr ⟨c, rfl, hkind, hrows, ?_, ?_, hinside⟩
      -- a row is null exactly when its bit is there and not set
      · intro row hrow
        have hnull : c.nulls.isNull row = true ↔ ∃ bits, streams.present = some bits ∧
          bits.bitAt row = false := by
          have hlt : row < (Nulls.marksOf streams.present rows).length := by
            rw [Nulls.length_marksOf]
            exact hrow
          rw [hmarked.isNull row hlt, Bool.not_eq_true', Nulls.getElem_marksOf]
        rw [← hrows] at hrow
        cases c with
        | fixed rows' stage attributes =>
            obtain ⟨value, hvalue, hnone, hlength⟩ := FixedColumn.Inside.value hinside hrow
            refine ⟨value, hvalue, hnone.trans hnull, fun bs hbs width hfixed => ?_⟩
            cases hwidth.trans hfixed
            exact hlength bs hbs
        | varying rows' stage offsetsStage attributes =>
            obtain ⟨value, hvalue, hnone⟩ := VariableColumn.Inside.value hrow
            exact ⟨value, hvalue, hnone.trans hnull, fun _ _ _ hfixed =>
              nomatch hwidth.trans hfixed⟩
      -- a range is inside when there are as many values
      · intro start len
        cases c with
        | fixed rows' stage attributes => exact FixedColumn.Inside.range hinside
        | varying rows' stage offsetsStage attributes => exact VariableColumn.Inside.range hinside

/-- The first of two rows has its bit set, and the bits behind the second are not looked at. -/
example : ∃ c, decode (.ofKind "id" .int) .padded { length := 8 } 2
    { present := some [0xfd], data := [7, 0, 0, 0, 9, 9, 9, 9] } = .ok c ∧ c.nonNull = 1 ∧
      c.value 0 = .ok (some [7, 0, 0, 0]) ∧ c.value 1 = .ok none :=
  ⟨_, rfl, rfl, rfl, rfl⟩

end Column

end ColumnFile
