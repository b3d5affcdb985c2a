import ColumnFile.Proofs.Column.Decode
import ColumnFile.Proofs.Stripe.ColumnSet

/-! # A column reads back whenever its streams are taken

Steps of growth and requests for the encoded streams come in any order. A request keeps what it
made, or gives a dictionary up for good, and every step of growth makes the column forget what it
kept.

* **`Column.Grown`** — the columns that steps of growth and requests for the streams lead to.
* **`Column.DictionaryPaid`** — a dictionary that is kept pays for the rows as they are; this is why
  a column that was read does not give up the dictionary of its own stream.
* **`Column.ReadsAs`** — a column whose rows read like some cells.
* **`Column.streams_roundtrip`** — the streams of such a column read back as its cells, and the
  column that was read has the same streams. -/

namespace ColumnFile

namespace Column

variable {format : StorageFormat} {spec spec' : ColumnSpec} {c c' c₁ c₂ : Column}
  {cells : List Cell}

/-! ## (1) Dictionaries that are kept -/

/-- **A dictionary that is kept pays** for the rows of the column. -/
def DictionaryPaid : Column → Prop
  | fixed .. => True
  | varying rows stage _ _ =>
    stage.codec = .dictionary → stage.encoded.isSome = true → dictionaryPays rows.values = true

/-- A stage that keeps no encoded form keeps no dictionary. -/
theorem dictionaryPaid_of_empty {rows : VariableColumn} {stage offsetsStage : Stage}
    {attributes : Attributes} (h : stage.encoded = none) :
    (varying rows stage offsetsStage attributes).DictionaryPaid := by
  intro _ hsome
  rw [h] at hsome
  cases hsome

/-- A new column has no dictionary that was kept without paying. -/
theorem new_dictionaryPaid {choice offsets : EncodingChoice} {attributes : Attributes}
    (h : new spec format choice offsets attributes = .ok c) : c.DictionaryPaid := by
  unfold new at h
  obtain ⟨-, -, h⟩ := bind_eq_ok h
  split at h
  · obtain ⟨rows, -, h⟩ := bind_eq_ok h
    cases h
    trivial
  · obtain ⟨rows, -, h⟩ := bind_eq_ok h
    split at h
    · cases h
      exact dictionaryPaid_of_empty rfl
    · cases h
      exact dictionaryPaid_of_empty rfl

/-- **A step of growth** leaves nothing kept, unless the column refuses it as it is. -/
theorem attempt_dictionaryPaid (step : ColumnSet.Step) (h : c.DictionaryPaid) :
    (step.attempt c).2.DictionaryPaid := by
  cases c with
  | fixed rows stage attributes =>
      cases step with
      | append value => trivial
      | appendNull => trivial
      | appendToast value => trivial
      | setRows count =>
          show (setRows _ count).2.DictionaryPaid
          rw [setRows]
          split
          · trivial
          · trivial
  | varying rows stage offsetsStage attributes =>
      cases step with
      | append value => exact dictionaryPaid_of_empty rfl
      | appendNull => exact dictionaryPaid_of_empty rfl
      | appendToast value => exact dictionaryPaid_of_empty rfl
      | setRows count => exact dictionaryPaid_of_empty rfl

/-- **The dictionary with which values are encoded** pays: one that is kept did already, and one
that is made did not give way. -/
theorem settle_pays {rows : VariableColumn} {stage : Stage} {attributes : Attributes}
    (h : stage.codec = .dictionary → stage.encoded.isSome = true →
      dictionaryPays rows.values = true)
    (hcodec : (settle rows stage attributes).1.codec = .dictionary) :
    dictionaryPays rows.values = true := by
  unfold settle at hcodec
  split at hcodec
  · cases hcodec
  · rename_i hstays
    by_cases hkept : stage.encoded.isSome = true
    · exact h hcodec hkept
    · by_contra hpays
      refine hstays ⟨hcodec, ?_, ?_⟩
      · rw [Option.isNone_iff_eq_none]
        exact Option.not_isSome_iff_eq_none.mp hkept
      · rw [Bool.not_eq_true _ |>.mp hpays]
        rfl

/-- A dictionary that pays does not give way. -/
theorem settle_of_pays {rows : VariableColumn} {stage : Stage} (attributes : Attributes)
    (h : stage.codec = .dictionary → dictionaryPays rows.values = true) :
    settle rows stage attributes = (stage, attributes) := by
  rw [settle, if_neg]
  rintro ⟨hcodec, -, hpays⟩
  rw [h hcodec] at hpays
  cases hpays

variable [BlockLibrary]

/-- Data that are encoded keep a dictionary only if it pays. -/
theorem encodeData_dictionaryPaid (hc : c.Holds spec format cells) (h : c.DictionaryPaid) :
    c.encodeData.2.DictionaryPaid := by
  cases hc with
  | fixed hrows hinside hstage => trivial
  | @varying rows stage offsetsStage attributes _ _ _ hrows hstage hoffsets =>
      have hcodec := (Stage.encode_spec (settle_keeps attributes hstage) rows.data.toList rfl).2.1
      intro hdictionary _
      exact settle_pays h (hcodec.symm.trans hdictionary)

/-- Offsets that are encoded leave the dictionary as it is. -/
theorem encodeOffsets_dictionaryPaid (h : c.DictionaryPaid) : c.encodeOffsets.2.DictionaryPaid := by
  cases c with
  | fixed rows stage attributes => trivial
  | varying rows stage offsetsStage attributes => exact h

/-! ## (2) Growth and requests -/

/-- **The columns** that calls lead to, from a new column on, and the cells that the calls added. -/
inductive Grown (spec : ColumnSpec) (format : StorageFormat) : Column → List Cell → Prop
  /-- A new column, whatever its encodings and attributes. -/
  | new (choice offsets : EncodingChoice) (attributes : Attributes) {c : Column}
      (h : Column.new spec format choice offsets attributes = .ok c) : Grown spec format c []
  /-- A successful step of growth. -/
  | grow {c c' : Column} {cells : List Cell} (hc : Grown spec format c cells)
      (step : ColumnSet.Step)
      (h : step.attempt c = (.ok (), c')) : Grown spec format c' (step.cellsAfter cells)
  /-- The data stream is asked for. -/
  | encodeData {c c' : Column} {cells : List Cell} {data : Bytes} (hc : Grown spec format c cells)
      (h : c.encodeData = (.ok data, c')) : Grown spec format c' cells
  /-- The offsets stream is asked for. -/
  | encodeOffsets {c c' : Column} {cells : List Cell} {offsets : Option Bytes}
      (hc : Grown spec format c cells) (h : c.encodeOffsets = (.ok offsets, c')) :
      Grown spec format c' cells

/-- **Every such column** holds its cells, and a dictionary that it keeps pays. -/
theorem Grown.holds (h : Grown spec format c cells) :
    c.Holds spec format cells ∧ c.DictionaryPaid := by
  induction h with
  | new choice offsets attributes h => exact ⟨new_spec h, new_dictionaryPaid h⟩
  | grow hc step h ih =>
      refine ⟨step.attempt_spec ih.1 h, ?_⟩
      have hpaid := attempt_dictionaryPaid step ih.2
      rw [h] at hpaid
      exact hpaid
  | encodeData hc h ih =>
      have hholds := encodeData_holds ih.1
      have hpaid := encodeData_dictionaryPaid ih.1 ih.2
      rw [h] at hholds hpaid
      exact ⟨hholds, hpaid⟩
  | encodeOffsets hc h ih =>
      have hholds := encodeOffsets_holds ih.1
      have hpaid := encodeOffsets_dictionaryPaid ih.2
      rw [h] at hholds hpaid
      exact ⟨hholds, hpaid⟩

/-! ## (3) The streams of a column -/

/-- The streams of a column are what it says of its rows and its encoded data and offsets. -/
theorem streams_of_encode {data : Bytes} {offsets : Option Bytes}
    (hdata : c.encodeData = (.ok data, c₁)) (hoffsets : c₁.encodeOffsets = (.ok offsets, c₂)) :
    c.streams = (.ok {
      present := c.nulls.bitmap.map Bitmap.toBytes
      data := data
      offsets := offsets
      toast := c.toastRows.map Bitmap.toBytes }, c₂) := by
  obtain ⟨hnulls, htoast, -, -⟩ := encode_keeps hdata hoffsets
  rw [streams, hdata]
  dsimp only
  rw [hoffsets]
  dsimp only
  rw [hnulls, htoast, ok_bind, ok_bind]
  rfl

/-- **Both streams are encoded** when no compressor fails. -/
theorem encode_total (hlibrary : BlockLibrary.Total) (hc : c.Holds spec format cells) :
    ∃ data c₁ offsets c₂, c.encodeData = (.ok data, c₁) ∧ c₁.encodeOffsets = (.ok offsets, c₂) := by
  obtain ⟨data, hdata⟩ := encodeData_total hlibrary hc
  obtain ⟨offsets, hoffsets⟩ := encodeOffsets_total hlibrary (encodeData_holds hc)
  exact ⟨data, _, offsets, _, Prod.ext hdata rfl, Prod.ext hoffsets rfl⟩

/-- The data of a column of variable length that was read are encoded as they were. -/
theorem encodeData_reread {rows : VariableColumn} {stage : Stage} (offsetsStage : Stage)
    {data : Bytes} (hstage : stage.Keeps false .values (encodeValues rows))
    (hpays : stage.codec = .dictionary → dictionaryPays rows.values = true)
    (hmake : encodeValues rows stage.codec = .ok data) :
    ∃ stage', (varying { rows with external := #[] } (Stage.read stage.codec stage.choice)
      offsetsStage
      []).encodeData =
        (.ok data, varying { rows with external := #[] } stage' offsetsStage []) := by
  have hstays : settle { rows with external := #[] } (Stage.read stage.codec stage.choice) [] =
      (Stage.read stage.codec stage.choice, []) := settle_of_pays [] hpays
  have hread := (Stage.encode_spec hstage.read rows.data.toList rfl).1.trans hmake
  rw [encodeData, hstays]
  exact ⟨_, Prod.ext hread rfl⟩

/-- **The column that was read encodes its streams as they were**: its codecs are those with which
they were made, and a dictionary among them pays. -/
theorem encode_reread {data : Bytes} {offsets : Option Bytes} (hc : c.Holds spec format cells)
    (hpaid : c.DictionaryPaid) (hdata : c.encodeData = (.ok data, c₁))
    (hoffsets : c₁.encodeOffsets = (.ok offsets, c₂)) :
    ∃ d₁ d₂, c₂.reread.encodeData = (.ok data, d₁) ∧ d₁.encodeOffsets = (.ok offsets, d₂) := by
  -- what is kept for the next time is recorded under the codec that the streams are read with
  cases hc with
  | @fixed rows stage attributes _ _ _ hrows hinside hstage =>
      obtain ⟨hmade, hcodec, -, hkept⟩ := Stage.encode_spec hstage rows.data.toList rfl
      rw [encodeData, Prod.mk.injEq] at hdata
      obtain ⟨hok, rfl⟩ := hdata
      rw [encodeOffsets, Prod.mk.injEq] at hoffsets
      obtain ⟨hnone, rfl⟩ := hoffsets
      have hmake := hmade.symm.trans hok
      rw [← hcodec] at hmake
      have hread := (Stage.encode_spec hkept.read rows.data.toList rfl).1.trans hmake
      exact ⟨_, _, Prod.ext hread rfl, Prod.ext hnone rfl⟩
  | @varying rows stage offsetsStage attributes _ _ _ hrows hstage hoffsetsStage =>
      obtain ⟨hmade, hcodec, -, hkept⟩ :=
        Stage.encode_spec (settle_keeps attributes hstage) rows.data.toList rfl
      obtain ⟨hmade', hcodec', -, hkept'⟩ := Stage.encode_spec hoffsetsStage rows.offsetBytes rfl
      rw [encodeData, Prod.mk.injEq] at hdata
      obtain ⟨hok, rfl⟩ := hdata
      rw [encodeOffsets, Prod.mk.injEq] at hoffsets
      obtain ⟨hok', rfl⟩ := hoffsets
      obtain ⟨offsetsSrc, hsrc, rfl⟩ := map_eq_ok hok'
      have hmake := hmade.symm.trans hok
      rw [← hcodec] at hmake
      have hmake' := hmade'.symm.trans hsrc
      rw [← hcodec'] at hmake'
      obtain ⟨stage', hread⟩ := encodeData_reread _ hkept
        (fun hdictionary => settle_pays hpaid (hcodec.symm.trans hdictionary)) hmake
      have hread' := (Stage.encode_spec hkept'.read rows.offsetBytes rfl).1.trans hmake'
      refine ⟨_, _, hread, Prod.ext ?_ rfl⟩
      exact congrArg (Except.map some) hread'

/-- **The column that was read has the same streams.** -/
theorem reread_streams {data : Bytes} {offsets : Option Bytes} (hc : c.Holds spec format cells)
    (hpaid : c.DictionaryPaid) (hdata : c.encodeData = (.ok data, c₁))
    (hoffsets : c₁.encodeOffsets = (.ok offsets, c₂)) :
    ∃ d, c₂.reread.streams = (.ok (c.streamsWith data offsets), d) := by
  have hmirrors := reread_mirrors hdata hoffsets
  obtain ⟨d₁, d₂, hdata', hoffsets'⟩ := encode_reread hc hpaid hdata hoffsets
  refine ⟨d₂, ?_⟩
  rw [streams_of_encode hdata' hoffsets', hmirrors.nulls, hmirrors.toastRows, streamsWith,
    hc.present_eq]

/-! ## (4) Other descriptions of a column -/

/-- The column as another specification of its kind describes it. -/
def described (c : Column) (spec : ColumnSpec) : Column :=
  match c with
  | fixed rows stage attributes => fixed { rows with align := spec.align } stage attributes
  | varying rows stage offsetsStage attributes =>
    varying { rows with align := spec.align } stage offsetsStage attributes

/-- Under another name and alignment a column holds the same cells. -/
theorem Holds.described (hc : c.Holds spec format cells) (hkind : spec'.kind = spec.kind)
    (hvalid : spec'.validAlign = true) : (c.described spec').Holds spec' format cells := by
  cases hc with
  | fixed hrows hinside hstage =>
      refine Holds.fixed ⟨?_, ?_, rfl, hrows.format_eq, hvalid, hrows.nulls_eq, hrows.data_eq,
        hrows.lengths⟩ hinside ⟨hstage.reads, hstage.suits, hstage.cached⟩
      · rw [hkind]
        exact hrows.kind_eq
      · rw [hkind]
        exact hrows.width_eq
  | varying hrows hstage hoffsets =>
      refine Holds.varying ⟨?_, ?_, rfl, hrows.format_eq, hvalid, hrows.nulls_eq, hrows.data_eq,
        hrows.offsets_eq, hrows.small, hrows.toast_eq, hrows.external_eq⟩
        ⟨hstage.reads, hstage.suits, hstage.cached⟩
          ⟨hoffsets.reads, hoffsets.suits, hoffsets.cached⟩
      · rw [hkind]
        exact hrows.kind_eq
      · rw [hkind]
        exact hrows.width_eq

/-- Under another name and alignment a column has the same streams. -/
theorem encode_described (c : Column) (spec' : ColumnSpec) :
    (c.described spec').encodeData = (c.encodeData.1, c.encodeData.2.described spec') ∧
      (c.described spec').encodeOffsets =
        (c.encodeOffsets.1, c.encodeOffsets.2.described spec') := by
  cases c with
  | fixed rows stage attributes => exact ⟨rfl, rfl⟩
  | varying rows stage offsetsStage attributes => exact ⟨rfl, rfl⟩

omit [BlockLibrary] in
/-- A column that is described anew keeps its dictionary. -/
theorem described_dictionaryPaid (spec' : ColumnSpec) (h : c.DictionaryPaid) :
    (c.described spec').DictionaryPaid := by
  cases c with
  | fixed rows stage attributes => trivial
  | varying rows stage offsetsStage attributes => exact h

omit [BlockLibrary] in
/-- A column reports the same under another name and alignment. -/
theorem described_reports (c : Column) (spec' : ColumnSpec) :
    (c.described spec').encoding = c.encoding ∧ (c.described spec').rows = c.rows ∧
      ∀ data offsets, (c.described spec').streamsWith data offsets =
        c.streamsWith data offsets := by
  cases c with
  | fixed rows stage attributes => exact ⟨rfl, rfl, fun _ _ => rfl⟩
  | varying rows stage offsetsStage attributes => exact ⟨rfl, rfl, fun _ _ => rfl⟩

omit [BlockLibrary] in
/-- A column reads the same under another name and alignment. -/
theorem Mirrors.described {d : Column} (h : d.Mirrors (c.described spec')) : d.Mirrors c := by
  cases c with
  | fixed rows stage attributes =>
      exact ⟨h.kind, h.format, h.rows, h.nonNull, h.nulls, h.toastRows, h.value, h.range⟩
  | varying rows stage offsetsStage attributes =>
      exact ⟨h.kind, h.format, h.rows, h.nonNull, h.nulls, h.toastRows, h.value, h.range⟩

/-! ## (5) Round trip -/

/-- **A column reads as cells**: it has a row for each of them, null or marked as they are, and the
value of a row is what its cell stores. -/
structure ReadsAs (d : Column) (cells : List Cell) : Prop where
  rows : d.rows = cells.length
  nonNull : d.nonNull = cells.countP Cell.notNull
  toastRows : d.toastRows = VariableColumn.toastOf cells
  value : ∀ row cell, cells[row]? = some cell → d.value row =
    .ok (if cell.notNull then some (cell.stored (externalOf (cells.take row)).length) else none)

/-- A column has as many values as cells that are not null. -/
theorem Holds.nonNull_eq (hc : c.Holds spec format cells) :
    c.nonNull = cells.countP Cell.notNull := by
  rw [nonNull, hc.nulls_eq, Nulls.nonNull_ofMarks, List.countP_map]
  rfl

/-- A column that reads like one that holds cells reads as the cells. -/
theorem Mirrors.readsAs {d : Column} (h : d.Mirrors c) (hc : c.Holds spec format cells) :
    d.ReadsAs cells where
  rows := h.rows.trans hc.rows_eq
  nonNull := h.nonNull.trans hc.nonNull_eq
  toastRows := h.toastRows.trans hc.toastRows_eq
  value row _ hcell := (h.value row).trans (hc.value_eq hcell)

/-- **The streams of a column read back.** Whatever successful steps of growth and requests for the
encoded streams come before: both streams are encoded; with the encodings that the column then
reports, they are decoded, under any name and valid alignment, into a column that reads as the cells
of the steps and like the column itself, range by range as well; and the column that was read has
the same streams. The rows can be counted in a machine word, and the library of block compressors
never fails and restores what it made. -/
theorem streams_roundtrip (htotal : BlockLibrary.Total) (hrestores : BlockLibrary.Restores)
    (h : Grown spec format c cells) (hcount : cells.length + 1 < 2 ^ 64)
    (hkind : spec'.kind = spec.kind) (hvalid : spec'.validAlign = true) :
    ∃ streams c' d d', c.streams = (.ok streams, c') ∧
      decode spec' format c'.encoding c'.rows streams = .ok d ∧ d.ReadsAs cells ∧ d.Mirrors c ∧
      d.streams = (.ok streams, d') := by
  obtain ⟨hc, hpaid⟩ := h.holds
  obtain ⟨data, c₁, offsets, c₂, hdata, hoffsets⟩ := encode_total htotal hc
  -- the same column and its streams, under the other specification
  have hother := hc.described hkind hvalid
  have hdata' : (c.described spec').encodeData = (.ok data, c₁.described spec') := by
    rw [(encode_described c spec').1, hdata]
  have hoffsets' : (c₁.described spec').encodeOffsets = (.ok offsets, c₂.described spec') := by
    rw [(encode_described c₁ spec').2, hoffsets]
  have hcount' : (c.described spec').rows + 1 < 2 ^ 64 := by
    rw [hother.rows_eq]
    exact hcount
  have hdecoded := decode_reread hrestores hother hcount' hdata' hoffsets'
  obtain ⟨d', hagain⟩ := reread_streams hother (described_dictionaryPaid spec' hpaid) hdata'
    hoffsets'
  have hmirrors : (c₂.described spec').reread.Mirrors c :=
    (reread_mirrors hdata' hoffsets').described
  obtain ⟨hencoding, -, -⟩ := described_reports c₂ spec'
  obtain ⟨-, hrows, hstreamsWith⟩ := described_reports c spec'
  obtain ⟨hnulls, -, -, -⟩ := encode_keeps hdata hoffsets
  have hrows₂ : c₂.rows = c.rows := congrArg Nulls.rows hnulls
  have hstreams : c.streams = (.ok (c.streamsWith data offsets), c₂) := by
    rw [streams_of_encode hdata hoffsets, streamsWith, hc.present_eq]
  rw [hencoding, hrows, hstreamsWith, ← hrows₂] at hdecoded
  rw [hstreamsWith] at hagain
  exact ⟨_, c₂, _, d', hstreams, hdecoded, hmirrors.readsAs hc, hmirrors, hagain⟩

omit [BlockLibrary] in
/-- A dictionary of texts, which is asked for before a null row and a text out of line are added. -/
theorem streams_roundtrip_dictionary :
    ∃ c, @Grown .verbatim (.ofKind "note" .string) .dense c
        [.inline [7], .inline [7], .null, .outside [5, 6]] ∧
      ∃ streams c' d d', @Column.streams .verbatim c = (.ok streams, c') ∧
        @decode .verbatim { ColumnSpec.ofKind "text" .string with align := 2 } .dense
          c'.encoding c'.rows
          streams = .ok d ∧ d.ReadsAs [.inline [7], .inline [7], .null, .outside [5, 6]] ∧
          d.Mirrors c ∧
        @Column.streams .verbatim d = (.ok streams, d') := by
  let _ : BlockLibrary := .verbatim
  have hnew : Grown (.ofKind "note" .string) .dense _ [] := .new { kind := .dictionary } {} [] rfl
  have hasked := ((hnew.grow (.append [7]) rfl).grow (.append [7]) rfl).encodeData rfl
  have hgrown := ((hasked.grow .appendNull rfl).encodeOffsets rfl).grow (.appendToast [5, 6]) rfl
  exact ⟨_, hgrown, streams_roundtrip BlockLibrary.verbatim_total
    BlockLibrary.verbatim_restores hgrown
    (by decide) rfl (by decide)⟩

end Column

end ColumnFile
