import ColumnFile.Proofs.Column.Refused

/-! # Columns keep to their description

What the places of the streams of a column depend on, whatever the calls on it led to: its
alignment, which of its rows are null, and that the codec in effect is the one that is recorded.

* **`Column.Made`** — the columns that calls lead to, from one description on.
* **`Nulls.Sound`** — null rows that are counted right; `Nulls.Sound.lt_iff` — some row is null.
* **`Stage.Recorded`** — a stage whose choice tells its codec; `Stage.Recorded.isPlain_iff`.
* **`Column.Made.described`** — the alignment and the codecs of such a column. -/

namespace ColumnFile

/-! ## (1) Null rows -/

namespace Nulls

variable {t : Nulls} {marks : List Bool}

/-- Null rows are **sound** when they are those of some marks. -/
def Sound (t : Nulls) : Prop := ∃ marks, t.Marked marks

/-- **One more row** keeps the tracker sound. -/
theorem Sound.push (h : t.Sound) (notNull : Bool) : (t.push notNull).Sound := by
  obtain ⟨marks, hmarks⟩ := h
  exact ⟨marks ++ [notNull], hmarks.push notNull⟩

/-- **Fewer values than rows** means that some row is null. -/
theorem Sound.lt_iff (h : t.Sound) : t.nonNull < t.rows ↔ ∃ row < t.rows, t.isNull row = true := by
  obtain ⟨marks, hmarks⟩ := h
  rw [hmarks.rows, hmarks.nonNull]
  rw [List.countP_lt_length_iff]
  constructor
  · rintro ⟨mark, hmark, hunset⟩
    obtain ⟨row, hrow, rfl⟩ := List.getElem_of_mem hmark
    refine ⟨row, hrow, ?_⟩
    rw [hmarks.isNull row hrow, Bool.not_eq_true']
    exact hunset
  · rintro ⟨row, hrow, hnull⟩
    rw [hmarks.isNull row hrow, Bool.not_eq_true'] at hnull
    exact ⟨_, List.getElem_mem hrow, hnull⟩

/-- Null rows are in a bitmap. -/
theorem Sound.exists_bitmap (h : t.Sound) (hlt : t.nonNull < t.rows) : ∃ b, t.bitmap = some b := by
  obtain ⟨row, -, hnull⟩ := h.lt_iff.mp hlt
  cases hbitmap : t.bitmap with
  | some b => exact ⟨b, rfl⟩
  | none =>
      rw [isNull, hbitmap] at hnull
      cases hnull

end Nulls

/-! ## (2) Stages -/

namespace Stage

variable {s : Stage} {signed : Bool}

/-- A stage is **recorded** by its choice: a reader finds its codec from it. -/
def Recorded (s : Stage) (signed : Bool) : Prop := Codec.forReading s.choice signed = .ok s.codec

/-- A plain stage is recorded by its choice. -/
theorem recorded_plain (signed : Bool) : plain.Recorded signed := rfl

/-- A stage that is resolved is recorded by its choice. -/
theorem recorded_resolve (choice : EncodingChoice) (shape : StreamShape) (signed : Bool) :
    (resolve choice shape signed).Recorded signed := (Codec.resolve_spec choice shape signed).2

/-- A stage that encodes stays recorded by its choice. -/
theorem Recorded.encode (h : s.Recorded signed) (raw : Bytes) (make : Unit → Except Fault Bytes) :
    (s.encode raw make).2.Recorded signed := by
  obtain ⟨hcodec, hchoice⟩ := s.encode_same raw make
  rw [Recorded, hcodec, hchoice]
  exact h

/-- **The codec is plain** exactly when the choice says so. -/
theorem Recorded.isPlain_iff (h : s.Recorded signed) : s.codec.isPlain = true ↔
    s.choice.kind = .plain := by
  obtain ⟨codec, ⟨kind, level⟩, encoded⟩ := s
  rw [Recorded] at h
  dsimp only at h ⊢
  rw [Codec.isPlain, beq_iff_eq]
  cases kind <;> cases h <;> simp

end Stage

/-! ## (3) Rows -/

/-- A description **fits** rows: they have its alignment, which is a valid one, and sound null
rows. -/
structure ColumnSpec.Fits (spec : ColumnSpec) (align : Nat) (nulls : Nulls) : Prop where
  align_eq : align = spec.align
  valid : spec.validAlign = true
  nulls : nulls.Sound

namespace FixedColumn

variable {c : FixedColumn} {spec : ColumnSpec}

/-- A row that is appended leaves alignment and marks as they fit. -/
theorem append_fits (h : spec.Fits c.align c.nulls) (v : Bytes) :
    spec.Fits (c.append v).2.align (c.append v).2.nulls := by
  unfold append
  split
  · exact h
  · exact ⟨h.align_eq, h.valid, h.nulls.push true⟩

/-- Nulls that are appended leave alignment and marks as they fit. -/
theorem appendNulls_fits (h : spec.Fits c.align c.nulls) (n : Nat) :
    spec.Fits (appendNulls n c).align (appendNulls n c).nulls := by
  induction n generalizing c with
  | zero => exact h
  | succ n ih => exact ih ⟨h.align_eq, h.valid, h.nulls.push false⟩

/-- A column that was rebuilt from slots has the alignment of its description. -/
theorem ofData_fits {format : StorageFormat} {data : Bytes} {nulls : Nulls} (hnulls : nulls.Sound)
    (h : ofData spec format data nulls = .ok c) : spec.Fits c.align c.nulls := by
  unfold ofData at h
  obtain ⟨new, hnew, h⟩ := bind_eq_ok h
  have hspec := new_spec hnew
  dsimp only at h
  split at h
  · cases h
  · cases h
    exact ⟨hspec.align_eq, hspec.valid, hnulls⟩

end FixedColumn

namespace VariableColumn

variable {c : VariableColumn} {spec : ColumnSpec}

/-- A row that ends leaves alignment and marks as they fit. -/
theorem endRow_fits (h : spec.Fits c.align c.nulls) (notNull toasted : Bool) :
    spec.Fits (c.endRow notNull toasted).2.align (c.endRow notNull toasted).2.nulls := by
  unfold endRow
  split
  · exact h
  · exact ⟨h.align_eq, h.valid, h.nulls.push notNull⟩

/-- Nulls that are appended leave alignment and marks as they fit. -/
theorem appendNulls_fits (h : spec.Fits c.align c.nulls) (n : Nat) :
    spec.Fits (appendNulls n c).2.align (appendNulls n c).2.nulls := by
  induction n generalizing c with
  | zero => exact h
  | succ n ih =>
      have hnull := endRow_fits h false false
      rw [appendNulls]
      split
      · rename_i grown hgrown
        rw [show (c.endRow false false).2 = grown from congrArg Prod.snd hgrown] at hnull
        exact ih hnull
      · rename_i e grown hgrown
        rw [show (c.endRow false false).2 = grown from congrArg Prod.snd hgrown] at hnull
        exact hnull

/-- **A step of growth**, whatever comes of it, leaves rows that the description fits. -/
theorem grow_fits (h : spec.Fits c.align c.nulls) (step : ColumnSet.Step) :
    spec.Fits (step.grow c).2.align (step.grow c).2.nulls := by
  cases step with
  | append value => exact endRow_fits (c := c.extend value []) h true false
  | appendNull => exact endRow_fits h false false
  | appendToast value =>
      exact endRow_fits (c := c.extend (Column.reference c.external.toList value) value) h true true
  | setRows count =>
      rw [ColumnSet.Step.grow]
      split
      · exact h
      · exact appendNulls_fits h _

/-- A column that was rebuilt from streams has the alignment of its description. -/
theorem ofData_fits {format : StorageFormat} {data offsetBytes : Bytes} {nulls : Nulls}
    {toast : Option Bitmap} (hnulls : nulls.Sound)
    (h : ofData spec format data offsetBytes nulls toast = .ok c) :
    spec.Fits c.align c.nulls := by
  unfold ofData at h
  obtain ⟨new, hnew, h⟩ := bind_eq_ok h
  have hspec := new_spec hnew
  dsimp only at h
  split at h
  · cases h
  split at h
  · cases h
  split at h
  · cases h
  split at h
  · cases h
  cases h
  exact ⟨hspec.align_eq, hspec.valid, hnulls⟩

end VariableColumn

/-! ## (4) Columns -/

namespace Column

open ColumnSet (Step)

variable [BlockLibrary] {spec : ColumnSpec} {c : Column}

/-- **The columns of a description**: a new or a decoded one, and what calls on it lead to, whatever
comes of each call. -/
inductive Made (spec : ColumnSpec) : Column → Prop
  /-- A new column, whatever its encodings and attributes. -/
  | new {format : StorageFormat} {choice offsets : EncodingChoice} {attributes : Attributes}
  {c : Column}
      (h : Column.new spec format choice offsets attributes = .ok c) : Made spec c
  /-- A column that was decoded from any streams. -/
  | decoded {format : StorageFormat} {encoding : ColumnEncoding} {rows : Nat}
  {streams : ColumnStreams}
      {c : Column} (h : decode spec format encoding rows streams = .ok c) : Made spec c
  /-- A step of growth, which succeeds or not. -/
  | attempt {c : Column} (hc : Made spec c) (step : Step) : Made spec (step.attempt c).2
  /-- The data stream is asked for, and made or not. -/
  | encodeData {c : Column} (hc : Made spec c) : Made spec c.encodeData.2
  /-- The offsets stream is asked for, and made or not. -/
  | encodeOffsets {c : Column} (hc : Made spec c) : Made spec c.encodeOffsets.2
  /-- The attributes are changed. -/
  | withAttributes {c : Column} (hc : Made spec c) (attributes : Attributes) :
      Made spec (c.withAttributes attributes)

/-- **A column keeps to its description**: it has fixed width or not as that says, the description
fits its rows, and its stages are recorded. -/
def Described (spec : ColumnSpec) : Column → Prop
  | fixed rows stage _ =>
    spec.kind.fixedWidth.isSome = true ∧ spec.Fits rows.align rows.nulls ∧ stage.Recorded true
  | varying rows stage offsetsStage _ =>
    spec.kind.fixedWidth.isSome = false ∧ spec.Fits rows.align rows.nulls ∧ stage.Recorded false ∧
      offsetsStage.Recorded false

omit [BlockLibrary] in
/-- **A new column** is as its schema says. -/
theorem new_described {format : StorageFormat} {choice offsets : EncodingChoice}
    {attributes : Attributes} (h : Column.new spec format choice offsets attributes = .ok c) :
    c.Described spec := by
  unfold Column.new at h
  obtain ⟨-, -, h⟩ := bind_eq_ok h
  -- either kind of column is made without rows, with a codec that is recorded
  split at h
  · rename_i hwidth
    obtain ⟨rows, hrows, h⟩ := bind_eq_ok h
    have hspec := FixedColumn.new_spec hrows
    cases h
    refine ⟨hwidth, ⟨hspec.align_eq, hspec.valid, ?_⟩, ?_⟩
    · rw [hspec.nulls_eq]
      exact ⟨_, Nulls.marked_ofMarks _⟩
    · split
      · exact Stage.recorded_plain true
      · exact Stage.recorded_resolve choice _ true
  · rename_i hwidth
    obtain ⟨rows, hrows, h⟩ := bind_eq_ok h
    have hspec := VariableColumn.new_spec hrows
    have hfits : spec.Fits rows.align rows.nulls := by
      refine ⟨hspec.align_eq, hspec.valid, ?_⟩
      rw [hspec.nulls_eq]
      exact ⟨_, Nulls.marked_ofMarks _⟩
    rw [Bool.not_eq_true] at hwidth
    split at h
    · cases h
      exact ⟨hwidth, hfits, Stage.recorded_plain false, Stage.recorded_plain false⟩
    · cases h
      exact ⟨hwidth, hfits, Stage.recorded_resolve _ .values false,
        Stage.recorded_resolve _ .integers false⟩

/-- **A column that is decoded** is as its schema says. -/
theorem decode_described {format : StorageFormat} {encoding : ColumnEncoding} {rows : Nat}
    {streams : ColumnStreams} (h : decode spec format encoding rows streams = .ok c) :
    c.Described spec := by
  obtain ⟨nulls, hmarked, ⟨data, rows', codec, hcodec, hdata, rfl⟩ |
    ⟨data, offsets, toast, rows', codec, offsetsCodec, -, hcodec, hoffsetsCodec, hdata, rfl⟩⟩ :=
      decode_cases h
  · obtain ⟨hwidth, -⟩ := FixedColumn.ofData_ok hdata
    exact ⟨by rw [hwidth]; rfl, FixedColumn.ofData_fits ⟨_, hmarked⟩ hdata, hcodec⟩
  · obtain ⟨hwidth, -⟩ := VariableColumn.ofData_ok hdata
    exact ⟨by rw [hwidth]; rfl, VariableColumn.ofData_fits ⟨_, hmarked⟩ hdata, hcodec,
      hoffsetsCodec⟩

omit [BlockLibrary] in
/-- **A column stays as its schema says**, whatever is attempted. -/
theorem attempt_described (h : c.Described spec) (step : Step) :
    (step.attempt c).2.Described spec := by
  cases c with
  | fixed rows stage attributes =>
      obtain ⟨hwidth, hfits, hstage⟩ := h
      cases step with
      | append value => exact ⟨hwidth, FixedColumn.append_fits hfits value, hstage⟩
      | appendNull => exact ⟨hwidth, FixedColumn.appendNulls_fits hfits 1, hstage⟩
      | appendToast value => exact ⟨hwidth, hfits, hstage⟩
      | setRows count =>
          rw [Step.attempt, setRows]
          split
          · exact ⟨hwidth, hfits, hstage⟩
          · exact ⟨hwidth, FixedColumn.appendNulls_fits hfits _, hstage⟩
  | varying rows stage offsetsStage attributes =>
      obtain ⟨hwidth, hfits, hstage, hoffsets⟩ := h
      rw [Step.attempt_varying]
      exact ⟨hwidth, VariableColumn.grow_fits hfits step, hstage, hoffsets⟩

omit [BlockLibrary] in
/-- A dictionary that gives way gives way to a stage that is recorded. -/
theorem settle_recorded {rows : VariableColumn} {stage : Stage} (attributes : Attributes)
    (h : stage.Recorded false) : (settle rows stage attributes).1.Recorded false := by
  unfold settle
  split
  · exact Stage.recorded_resolve fallback .values false
  · exact h

/-- **A column stays as its schema says** when its data are encoded. -/
theorem encodeData_described (h : c.Described spec) : c.encodeData.2.Described spec := by
  cases c with
  | fixed rows stage attributes =>
      obtain ⟨hwidth, hfits, hstage⟩ := h
      exact ⟨hwidth, hfits, hstage.encode rows.data.toList fun _ => makeData rows stage.codec⟩
  | varying rows stage offsetsStage attributes =>
      obtain ⟨hwidth, hfits, hstage, hoffsets⟩ := h
      have hsettled : (settle rows stage attributes).1.Recorded false :=
        settle_recorded attributes hstage
      exact ⟨hwidth, hfits, hsettled.encode rows.data.toList fun _ => encodeValues rows _, hoffsets⟩

/-- **A column stays as its schema says** when its offsets are encoded. -/
theorem encodeOffsets_described (h : c.Described spec) : c.encodeOffsets.2.Described spec := by
  cases c with
  | fixed rows stage attributes => exact h
  | varying rows stage offsetsStage attributes =>
      obtain ⟨hwidth, hfits, hstage, hoffsets⟩ := h
      exact ⟨hwidth, hfits, hstage, hoffsets.encode rows.offsetBytes fun _ =>
        makeOffsets rows offsetsStage.codec⟩

/-- **Whatever calls lead to** keeps to the description that the column was made for. -/
theorem Made.described (h : Made spec c) : c.Described spec := by
  induction h with
  | new h => exact new_described h
  | decoded h => exact decode_described h
  | attempt _ step ih => exact attempt_described ih step
  | encodeData _ ih => exact encodeData_described ih
  | encodeOffsets _ ih => exact encodeOffsets_described ih
  | @withAttributes c _ attributes ih => cases c <;> exact ih

/-! ## (5) What is read off a description -/

omit [BlockLibrary]

/-- **The data** of a column that are stored as they are have the alignment of the description, and
encoded data have none. -/
theorem Described.align_eq (h : c.Described spec) :
    c.align = if c.choice.kind = .plain then spec.align else 1 := by
  cases c with
  | fixed rows stage attributes =>
      obtain ⟨-, hfits, hstage⟩ := h
      rw [align]
      exact if_congr hstage.isPlain_iff hfits.align_eq rfl
  | varying rows stage offsetsStage attributes =>
      obtain ⟨-, hfits, hstage, -⟩ := h
      rw [align]
      exact if_congr hstage.isPlain_iff hfits.align_eq rfl

/-- A column is aligned to something. -/
theorem Described.align_pos (h : c.Described spec) : 0 < c.align := by
  have hvalid : spec.validAlign = true := by
    cases c with
    | fixed rows stage attributes => exact h.2.1.valid
    | varying rows stage offsetsStage attributes => exact h.2.1.valid
  rw [h.align_eq]
  split
  · exact (align_le hvalid).1
  · exact Nat.one_pos

/-- Columns of fixed width have no offsets, the others have. -/
theorem Described.isSome_offsetsEncoding (h : c.Described spec) :
    c.offsetsEncoding.isSome = !spec.kind.fixedWidth.isSome := by
  cases c with
  | fixed rows stage attributes => rw [h.1]; rfl
  | varying rows stage offsetsStage attributes => rw [h.1]; rfl

/-- The null rows of a column that keeps to its description are sound. -/
theorem Described.nulls_sound (h : c.Described spec) : c.nulls.Sound := by
  cases c with
  | fixed rows stage attributes => exact h.2.1.nulls
  | varying rows stage offsetsStage attributes => exact h.2.1.nulls

/-- **A row reads as null** when it is there and tracked as null. -/
theorem value_eq_none (c : Column) (row : Nat) :
    c.value row = .ok none ↔ row < c.nulls.rows ∧ c.nulls.isNull row = true := by
  have hread (t : Nulls) (v : Bytes) :
      (t.checkRow row >>= fun _ => if t.isNull row then .ok none else .ok (some v)) =
        Except.ok none ↔
        row < t.rows ∧ t.isNull row = true := by
    rw [Nulls.checkRow]
    by_cases hrow : row < t.rows
    · rw [if_pos hrow, ok_bind]
      cases t.isNull row <;> simp [hrow]
    · rw [if_neg hrow]
      exact iff_of_false (fun h => by cases h) fun h => hrow h.1
  cases c with
  | fixed rows stage attributes => exact hread rows.nulls _
  | varying rows stage offsetsStage attributes => exact hread rows.nulls _

/-- **A column has nulls** when some row reads as null. -/
theorem Described.hasNull_iff (h : c.Described spec) :
    c.hasNull = true ↔ ∃ row, c.value row = .ok none := by
  have hcount : c.hasNull = true ↔ c.nulls.nonNull < c.nulls.rows := decide_eq_true_iff
  rw [hcount, h.nulls_sound.lt_iff]
  exact exists_congr fun row => (c.value_eq_none row).symm

/-- Nulls are in a bitmap. -/
theorem Described.isSome_bitmap (h : c.Described spec) (hnull : c.hasNull = true) :
    c.nulls.bitmap.isSome = true :=
  Option.isSome_iff_exists.mpr (h.nulls_sound.exists_bitmap (of_decide_eq_true hnull))

end Column

end ColumnFile
