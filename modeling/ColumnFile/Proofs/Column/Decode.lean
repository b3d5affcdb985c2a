import ColumnFile.Column.Decode
import ColumnFile.Proofs.Column.Basic
import ColumnFile.Proofs.Dictionary

/-! # Columns read back from their streams

The streams of a column that holds cells, with the encodings that were recorded, give a column with
the same rows. Only what is stored out of line is not in the streams.

* **`Column.decodeFixed_spec`**, **`Column.decodeVariable_spec`** — the two kinds of columns.
* **`Column.Mirrors`** — a column that reads like another.
* **`Column.decode_reread`** — the encoded streams of a column are decoded into what a reader makes
  of it, which mirrors it (`decode_spec`). -/

namespace ColumnFile

/-! ## (1) Null rows and offsets -/

namespace Nulls

/-- The bitmap of null rows is tidy and has a set bit for each value; without one every row has a
value. -/
theorem nonNull_of_bitmap (marks : List Bool) :
    (∀ b, (ofMarks marks).bitmap = some b → b.Tidy ∧ b.count = (ofMarks marks).nonNull) ∧
      ((ofMarks marks).bitmap = none → (ofMarks marks).nonNull = marks.length) := by
  unfold ofMarks
  dsimp only
  cases hmarks : marks.all id with
  | false =>
      rw [if_neg Bool.false_ne_true]
      refine ⟨?_, by intro h; cases h⟩
      intro b hb
      cases hb
      exact ⟨Bitmap.tidy_ofList marks, Bitmap.count_ofList marks⟩
  | true =>
      rw [if_pos rfl]
      refine ⟨(by intro b hb; cases hb), ?_⟩
      intro _
      exact List.countP_eq_length.mpr fun b hb => List.all_eq_true.mp hmarks b hb

end Nulls

namespace Column

/-- Offsets that were read as integers are packed again. -/
theorem packOffsets_spec (offsets : List UInt32) :
    packOffsets (offsets.map fun o => Int64.ofNat o.toNat) =
      .ok (offsets.flatMap fun o => Bytes.ofNatLE VariableColumn.offsetWidth o.toNat) := by
  induction offsets with
  | nil => rfl
  | cons o rest ih =>
      have hlt : o.toNat < 2 ^ 32 := o.toNat_lt
      have hint : (Int64.ofNat o.toNat).toInt = o.toNat := Int64.toInt_ofNat_of_lt (by omega)
      have hrange : ¬ (Int64.ofNat o.toNat < 0 ∨
        (1 <<< 32 : Nat) ≤ (Int64.ofNat o.toNat).toInt) := by
        rw [Int64.lt_iff_toInt_lt, hint]
        show ¬ ((o.toNat : Int) < 0 ∨ ((1 <<< 32 : Nat) : Int) ≤ (o.toNat : Int))
        omega
      have hbytes : Bytes.ofInt64 VariableColumn.offsetWidth (Int64.ofNat o.toNat) =
          Bytes.ofNatLE VariableColumn.offsetWidth o.toNat := by
        rw [Bytes.ofInt64, Int64.toUInt64_ofNat',
          UInt64.toNat_ofNat_of_lt' (by show o.toNat < 2 ^ 64; omega)]
      rw [List.map_cons, packOffsets, if_neg hrange, ih, ok_bind, hbytes, List.flatMap_cons]
      rfl

variable [BlockLibrary] {spec : ColumnSpec} {format : StorageFormat}

/-! ## (2) Columns of fixed width -/

/-- **A column of fixed width reads back** from its encoded data. -/
theorem decodeFixed_spec (hlibrary : BlockLibrary.Restores) {rows : FixedColumn}
    {cells : List (Option Bytes)} {stage : Stage} {encoding : ColumnEncoding} {src : Bytes}
    (hrows : rows.Holds spec format cells) (hstage : stage.Keeps true .integers (makeData rows))
    (hcount : cells.length < 2 ^ 64) (hdata : encoding.data = stage.choice)
    (hlength : encoding.length = rows.data.toList.length)
    (h : makeData rows stage.codec = .ok src) :
    decodeFixed spec format encoding src rows.nulls =
      .ok (fixed rows (Stage.read stage.codec stage.choice) []) := by
  have hreads := hstage.reads
  have hsuits := hstage.suits
  have hlen : rows.ints.length = rows.nulls.nonNull := by
    rw [FixedColumn.ints_spec hrows, List.length_map, FixedColumn.length_filterMap, hrows.nulls_eq,
      Nulls.nonNull_ofMarks]
  have hle : rows.nulls.nonNull ≤ cells.length := by
    rw [hrows.nulls_eq, Nulls.nonNull_ofMarks, ← FixedColumn.length_marks cells]
    exact List.countP_le_length
  obtain ⟨hsome, hnone⟩ := Nulls.nonNull_of_bitmap (cells.map Option.isSome)
  rw [← hrows.nulls_eq] at hsome hnone
  -- integer codecs give the values that are not null, the others the slots
  have hints : (∃ signed, stage.codec = .runLength signed) ∨ stage.codec = .delta →
      (∃ b, rows.nulls.bitmap = some b ∧ stage.codec.decodeNotNull src b = .ok rows.ints) ∨
        (rows.nulls.bitmap = none ∧
          stage.codec.decodeInts src rows.nulls.rows = .ok rows.ints) := by
    intro hcodec
    cases hbitmap : rows.nulls.bitmap with
    | some b =>
        refine Or.inl ⟨b, rfl, ?_⟩
        obtain ⟨htidy, hset⟩ := hsome b hbitmap
        exact Codec.decodeNotNull_encodeInts hcodec (by omega) htidy (hset.trans hlen.symm) h
    | none =>
        have hrowsLen : rows.nulls.rows = rows.ints.length := by
          rw [hlen, hnone hbitmap, hrows.nulls_eq, Nulls.rows_ofMarks]
        refine Or.inr ⟨rfl, ?_⟩
        rw [hrowsLen]
        exact Codec.decodeInts_encodeInts hcodec (by omega) h
  have hbytes : (stage.codec = .plain ∨ ∃ kind level, stage.codec = .block kind level) →
      stage.codec.decodeBytes src encoding.length = .ok rows.data.toList := by
    rw [hlength]
    rintro (hplain | ⟨kind, level, hblock⟩)
    · rw [hplain] at h ⊢
      cases h
      rw [Codec.decodeBytes, if_neg (by exact fun h => h rfl)]
    · rw [hblock] at h ⊢
      exact Codec.decodeBytes_block hlibrary h
  unfold decodeFixed
  rw [hdata, hreads, ok_bind]
  dsimp only
  cases hcodec : stage.codec with
  | dictionary =>
      rw [hcodec] at hsuits
      cases hsuits
  | plain =>
      rw [hcodec] at hbytes
      dsimp only
      rw [hbytes (Or.inl rfl), ok_bind, FixedColumn.ofData_spec hrows]
      rfl
  | block kind level =>
      rw [hcodec] at hbytes
      dsimp only
      rw [hbytes (Or.inr ⟨kind, level, rfl⟩), ok_bind, FixedColumn.ofData_spec hrows]
      rfl
  | runLength signed =>
      rw [hcodec] at hints
      rcases hints (Or.inl ⟨signed, rfl⟩) with ⟨b, hbitmap, hread⟩ | ⟨hbitmap, hread⟩
      · rw [hbitmap]
        dsimp only
        rw [hread, ok_bind, FixedColumn.ofInts_spec hrows]
        rfl
      · rw [hbitmap]
        dsimp only
        rw [hread, ok_bind, FixedColumn.ofInts_spec hrows]
        rfl
  | delta =>
      rw [hcodec] at hints
      rcases hints (Or.inr rfl) with ⟨b, hbitmap, hread⟩ | ⟨hbitmap, hread⟩
      · rw [hbitmap]
        dsimp only
        rw [hread, ok_bind, FixedColumn.ofInts_spec hrows]
        rfl
      · rw [hbitmap]
        dsimp only
        rw [hread, ok_bind, FixedColumn.ofInts_spec hrows]
        rfl

/-! ## (3) Columns of variable length -/

/-- **The values of a column read back**, joined. -/
theorem decodeValues_spec (hlibrary : BlockLibrary.Restores) {rows : VariableColumn}
    {cells : List Cell} {codec : Codec} {src : Bytes} (hrows : rows.Holds spec format cells)
    (hsuits : codec.suits .values = true) (h : encodeValues rows codec = .ok src) :
    decodeValues codec src rows.data.toList.length = .ok rows.data.toList := by
  have hvalues := VariableColumn.values_spec hrows
  cases codec with
  | plain =>
      cases h
      rw [decodeValues, Codec.decodeBytes, if_neg (by exact fun h => h rfl)]
      exact fun h => by cases h
  | block kind level =>
      rw [decodeValues]
      · exact Codec.decodeBytes_block hlibrary h
      · exact fun h => by cases h
  | dictionary =>
      have hsum : (rows.values.map List.length).sum < 2 ^ 32 := by
        rw [← List.length_flatten, hvalues]
        exact hrows.small
      cases h
      rw [decodeValues, Dictionary.expand_encode (Dictionary.fits_of_sum_lt hsum), hvalues]
      dsimp only
      rw [if_neg (by exact fun h => h rfl)]
  | runLength signed => cases hsuits
  | delta => cases hsuits

/-- **The offsets of a column read back.** -/
theorem decodeOffsets_spec (hlibrary : BlockLibrary.Restores) {rows : VariableColumn}
    {cells : List Cell} {codec : Codec} {src : Bytes} (hrows : rows.Holds spec format cells)
    (hcount : cells.length + 1 < 2 ^ 64) (hsuits : codec.suits .integers = true)
    (h : makeOffsets rows codec = .ok src) :
    decodeOffsets codec src (VariableColumn.offsetWidth * rows.offsets.size) rows.nulls.rows =
      .ok rows.offsetBytes := by
  have hlength : VariableColumn.offsetWidth * rows.offsets.size = rows.offsetBytes.length := by
    rw [VariableColumn.length_offsetBytes, Nat.mul_comm]
    rfl
  have hrowsEq : rows.nulls.rows = cells.length := by
    rw [hrows.nulls_eq, Nulls.rows_ofMarks, List.length_map]
  have hints : rows.offsetInts.length = rows.nulls.rows + 1 := by
    rw [VariableColumn.offsetInts, List.length_map, hrows.offsets_eq, List.length_map,
      length_boundsFrom, length_storedFrom, hrowsEq]
  have hpack : packOffsets rows.offsetInts = .ok rows.offsetBytes := packOffsets_spec _
  -- offsets that are stored as integers come back as they were
  have hdecode : (∃ signed, codec = .runLength signed) ∨ codec = .delta →
      codec.decodeInts src (rows.nulls.rows + 1) = .ok rows.offsetInts := by
    intro hcodec
    rw [← hints]
    exact Codec.decodeInts_encodeInts hcodec (by omega) h
  -- other codecs give the octets themselves
  cases codec with
  | plain =>
      cases h
      rw [decodeOffsets, hlength, Codec.decodeBytes, if_neg (by exact fun h => h rfl)]
      · exact fun _ h => by cases h
      · exact fun h => by cases h
  | block kind level =>
      rw [decodeOffsets, hlength]
      · exact Codec.decodeBytes_block hlibrary h
      · exact fun _ h => by cases h
      · exact fun h => by cases h
  | runLength signed => rw [decodeOffsets, hdecode (Or.inl ⟨signed, rfl⟩), ok_bind, hpack]
  | delta => rw [decodeOffsets, hdecode (Or.inr rfl), ok_bind, hpack]
  | dictionary => cases hsuits

/-- **A column of variable length reads back** from its encoded streams. -/
theorem decodeVariable_spec (hlibrary : BlockLibrary.Restores) {rows : VariableColumn}
    {cells : List Cell} {stage offsetsStage : Stage} {encoding : ColumnEncoding}
    {src offsetsSrc : Bytes} (hrows : rows.Holds spec format cells)
    (hstage : stage.Keeps false .values (encodeValues rows))
    (hoffsets : offsetsStage.Keeps false .integers (makeOffsets rows))
    (hcount : cells.length + 1 < 2 ^ 64) (hdata : encoding.data = stage.choice)
    (hlength : encoding.length = rows.data.toList.length)
    (hoffsetsData : encoding.offsets = offsetsStage.choice)
    (hoffsetsLength : encoding.offsetsLength = VariableColumn.offsetWidth * rows.offsets.size)
    (h : encodeValues rows stage.codec = .ok src)
    (h' : makeOffsets rows offsetsStage.codec = .ok offsetsSrc) :
    decodeVariable spec format encoding src offsetsSrc rows.nulls rows.toast =
      .ok (varying { rows with external := #[] } (Stage.read stage.codec stage.choice)
        (Stage.read offsetsStage.codec offsetsStage.choice) []) := by
  rw [decodeVariable, hdata, hstage.reads, ok_bind, hlength,
    decodeValues_spec hlibrary hrows hstage.suits h, ok_bind, hoffsetsData, hoffsets.reads, ok_bind,
    hoffsetsLength, decodeOffsets_spec hlibrary hrows hcount hoffsets.suits h', ok_bind,
    VariableColumn.ofData_spec hrows]
  rfl

/-! ## (4) Columns -/

omit [BlockLibrary] in
/-- A bitmap with a bit for each row reads back from its octets. -/
theorem decodeBitmap_spec {bitmap : Option Bitmap} {count : Nat} (short : Fault)
    (h : ∀ b, bitmap = some b → b.Tidy ∧ b.len = count) :
    decodeBitmap (bitmap.map Bitmap.toBytes) count short = .ok bitmap := by
  cases bitmap with
  | none => rfl
  | some b =>
      obtain ⟨htidy, hlen⟩ := h b rfl
      rw [Option.map_some, decodeBitmap, ← hlen, Bitmap.ofBytes?_toBytes htidy]

/-- **A column that reads like another**: the same kind, null rows and marks of references, and the
same values row by row and range by range. -/
structure Mirrors (d c : Column) : Prop where
  kind : d.kind = c.kind
  format : d.format = c.format
  rows : d.rows = c.rows
  nonNull : d.nonNull = c.nonNull
  nulls : d.nulls = c.nulls
  toastRows : d.toastRows = c.toastRows
  value : ∀ row, d.value row = c.value row
  range : ∀ start len, d.range start len = c.range start len

/-- The streams of a column that was encoded: what it says of its null rows and references, and the
encoded data and offsets. -/
def streamsWith (c : Column) (data : Bytes) (offsets : Option Bytes) : ColumnStreams where
  present := (if c.hasNull then c.nulls.bitmap else none).map Bitmap.toBytes
  data := data
  offsets := offsets
  toast := c.toastRows.map Bitmap.toBytes

/-- What a reader makes of a column: the rows, without what is out of line, and stages that keep
nothing yet. -/
def reread : Column → Column
  | fixed rows stage _ => fixed rows (Stage.read stage.codec stage.choice) []
  | varying rows stage offsetsStage _ =>
    varying { rows with external := #[] } (Stage.read stage.codec stage.choice)
      (Stage.read offsetsStage.codec offsetsStage.choice) []

/-- **A column read again** reads like the column before its streams were encoded. -/
theorem reread_mirrors {c c₁ c₂ : Column} {data : Bytes} {offsets : Option Bytes}
    (hdata : c.encodeData = (.ok data, c₁)) (hoffsets : c₁.encodeOffsets = (.ok offsets, c₂)) :
    c₂.reread.Mirrors c := by
  have hfirst : c₁ = c.encodeData.2 := by rw [hdata]
  have hsecond : c₂ = c₁.encodeOffsets.2 := by rw [hoffsets]
  rw [hsecond, hfirst]
  cases c with
  | fixed rows stage attributes =>
      exact ⟨rfl, rfl, rfl, rfl, rfl, rfl, fun _ => rfl, fun _ _ => rfl⟩
  | varying rows stage offsetsStage attributes =>
      exact ⟨rfl, rfl, rfl, rfl, rfl, rfl, fun _ => rfl, fun _ _ => rfl⟩

/-- A column has a bitmap of null rows only if it has some. -/
theorem Holds.present_eq {c : Column} {cells : List Cell} (hc : c.Holds spec format cells) :
    (if c.hasNull then c.nulls.bitmap else none) = c.nulls.bitmap := by
  by_cases hnull : c.hasNull = true
  · rw [if_pos hnull]
  · rw [if_neg hnull, hc.nulls_eq]
    have hall : ¬ (cells.map Cell.notNull).all id = false := by
      rw [← Nulls.lt_iff_not_all, ← hc.nulls_eq]
      exact fun hlt => hnull (decide_eq_true hlt)
    rw [Nulls.ofMarks, if_pos ((Bool.not_eq_false _).mp hall)]

/-- **The streams of a column are decoded** into what a reader makes of it. -/
theorem decode_reread (hlibrary : BlockLibrary.Restores) {c c₁ c₂ : Column} {cells : List Cell}
    {data : Bytes} {offsets : Option Bytes} (hc : c.Holds spec format cells)
    (hcount : c.rows + 1 < 2 ^ 64) (hdata : c.encodeData = (.ok data, c₁))
    (hoffsets : c₁.encodeOffsets = (.ok offsets, c₂)) :
    decode spec format c₂.encoding c.rows (c.streamsWith data offsets) = .ok c₂.reread := by
  have hcells : c.rows = cells.length := hc.rows_eq
  have hmarks : (cells.map Cell.notNull).length = c.rows := by rw [List.length_map, hcells]
  -- both bitmaps are decoded as they were
  have hbitmap : decodeBitmap (c.streamsWith data offsets).present c.rows .presentTooShort =
      .ok c.nulls.bitmap := by
    rw [streamsWith, hc.present_eq]
    refine decodeBitmap_spec _ ?_
    intro b hb
    rw [hc.nulls_eq, Nulls.ofMarks] at hb
    split at hb
    · cases hb
    · cases hb
      exact ⟨Bitmap.tidy_ofList _, by rw [Bitmap.len_ofList, hmarks]⟩
  have hnulls : Nulls.ofBitmap c.rows c.nulls.bitmap = .ok c.nulls := by
    rw [hc.nulls_eq, ← hmarks, Nulls.ofBitmap_ofMarks]
  have htoast : decodeBitmap (c.streamsWith data offsets).toast c.rows .toastTooShort =
      .ok c.toastRows := by
    refine decodeBitmap_spec _ ?_
    intro b hb
    rw [hc.toastRows_eq, VariableColumn.toastOf] at hb
    split at hb
    · cases hb
      exact ⟨Bitmap.tidy_ofList _, by rw [Bitmap.len_ofList, List.length_map, hcells]⟩
    · cases hb
  rw [decode, hbitmap, ok_bind, hnulls, ok_bind]
  -- then the values, with the codecs that were recorded
  cases hc with
  | @fixed rows stage attributes _ _ _ hrows hinside hstage =>
      obtain ⟨hmade, hcodec, -, hkept⟩ := Stage.encode_spec hstage rows.data.toList rfl
      rw [encodeData, Prod.mk.injEq] at hdata
      obtain ⟨hok, rfl⟩ := hdata
      rw [encodeOffsets, Prod.mk.injEq] at hoffsets
      obtain ⟨-, rfl⟩ := hoffsets
      have hmake := hmade.symm.trans hok
      rw [← hcodec] at hmake
      rw [if_pos (by rw [hrows.width_eq]; rfl)]
      refine decodeFixed_spec hlibrary hrows hkept ?_ rfl rfl hmake
      rw [List.length_map, ← hcells]
      exact Nat.lt_of_succ_lt hcount
  | @varying rows stage offsetsStage attributes _ _ _ hrows hstage hoffsetsStage =>
      obtain ⟨hmade, hcodec, -, hkept⟩ :=
        Stage.encode_spec (settle_keeps attributes hstage) rows.data.toList rfl
      obtain ⟨hmade', hcodec', -, hkept'⟩ := Stage.encode_spec hoffsetsStage rows.offsetBytes rfl
      rw [encodeData, Prod.mk.injEq] at hdata
      obtain ⟨hok, rfl⟩ := hdata
      have hmake := hmade.symm.trans hok
      rw [← hcodec] at hmake
      rw [encodeOffsets, Prod.mk.injEq] at hoffsets
      obtain ⟨hok', rfl⟩ := hoffsets
      obtain ⟨offsetsSrc, hoffsetsSrc, rfl⟩ := map_eq_ok hok'
      have hmake' := hmade'.symm.trans hoffsetsSrc
      rw [← hcodec'] at hmake'
      rw [if_neg (by rw [hrows.width_eq]; exact Bool.false_ne_true)]
      dsimp only [streamsWith] at htoast ⊢
      rw [htoast, ok_bind]
      refine decodeVariable_spec hlibrary hrows hkept hkept' ?_ rfl rfl rfl rfl hmake hmake'
      rw [← hcells]
      exact hcount

/-- **The streams of a column read back** as a column that reads like it. -/
theorem decode_spec (hlibrary : BlockLibrary.Restores) {c c₁ c₂ : Column} {cells : List Cell}
    {data : Bytes} {offsets : Option Bytes} (hc : c.Holds spec format cells)
    (hcount : c.rows + 1 < 2 ^ 64) (hdata : c.encodeData = (.ok data, c₁))
    (hoffsets : c₁.encodeOffsets = (.ok offsets, c₂)) :
    ∃ d, decode spec format c₂.encoding c.rows (c.streamsWith data offsets) = .ok d ∧
      d.Mirrors c :=
  ⟨_, decode_reread hlibrary hc hcount hdata hoffsets, reread_mirrors hdata hoffsets⟩

/-! ## (5) Encoding succeeds -/

/-- Integers are encoded by every codec that suits them. -/
theorem encodeInts_total (hlibrary : BlockLibrary.Total) {codec : Codec}
    (h : codec.suits .integers = true) (values : List Int64) (raw : Bytes) :
    ∃ bs, codec.encodeInts values raw = .ok bs := by
  cases codec with
  | plain => exact ⟨_, rfl⟩
  | runLength signed => exact ⟨_, rfl⟩
  | delta => exact ⟨_, rfl⟩
  | block kind level => exact Codec.compressBlock_total hlibrary kind level raw
  | dictionary => cases h

/-- Values are encoded by every codec that suits them. -/
theorem encodeValues_total (hlibrary : BlockLibrary.Total) {codec : Codec}
    (h : codec.suits .values = true) (rows : VariableColumn) :
    ∃ bs, encodeValues rows codec = .ok bs := by
  cases codec with
  | plain => exact ⟨_, rfl⟩
  | dictionary => exact ⟨_, rfl⟩
  | block kind level => exact Codec.compressBlock_total hlibrary kind level rows.data.toList
  | runLength signed => cases h
  | delta => cases h

/-- **The data stream is encoded** when no compressor fails. -/
theorem encodeData_total (hlibrary : BlockLibrary.Total) {c : Column} {cells : List Cell}
    (hc : c.Holds spec format cells) : ∃ bs, c.encodeData.1 = .ok bs := by
  cases hc with
  | fixed hrows hinside hstage =>
      obtain ⟨bs, hbs⟩ := encodeInts_total hlibrary hstage.suits _ _
      exact ⟨bs, (Stage.encode_spec hstage _ rfl).1.trans hbs⟩
  | varying hrows hstage hoffsets =>
      obtain ⟨bs, hbs⟩ := encodeValues_total hlibrary (settle_keeps _ hstage).suits _
      exact ⟨bs, (Stage.encode_spec (settle_keeps _ hstage) _ rfl).1.trans hbs⟩

/-- **The offsets stream is encoded** when no compressor fails. -/
theorem encodeOffsets_total (hlibrary : BlockLibrary.Total) {c : Column} {cells : List Cell}
    (hc : c.Holds spec format cells) : ∃ offsets, c.encodeOffsets.1 = .ok offsets := by
  cases hc with
  | fixed hrows hinside hstage => exact ⟨none, rfl⟩
  | @varying rows stage offsetsStage attributes _ _ _ hrows hstage hoffsets =>
      obtain ⟨bs, hbs⟩ := encodeInts_total hlibrary hoffsets.suits rows.offsetInts rows.offsetBytes
      refine ⟨some bs, ?_⟩
      have hmade := (Stage.encode_spec hoffsets rows.offsetBytes rfl).1.trans hbs
      have hmap : (varying rows stage offsetsStage attributes).encodeOffsets.1 =
          (offsetsStage.encode rows.offsetBytes fun _ =>
            makeOffsets rows offsetsStage.codec).1.map some :=
        rfl
      rw [hmap, hmade]
      rfl

end Column

end ColumnFile
