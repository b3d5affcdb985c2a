import ColumnFile.Proofs.Message.File
import ColumnFile.Proofs.Stripe.RoundTrip

/-! # Footers of stripes are within bounds

What the footer of a stripe says of its streams is bounded by how many columns, rows and octets the
stripe has, so that its message reads back.

* **`StripeImage.Bounded`** — an image whose list of streams is bounded; `put_bounded` is one more
  stream.
* **`Column.Holds.encoding_sized`** — the encodings of a column that has few enough rows.
* **`ColumnSet.serialize_sized`** — the footer of the image of a column set. -/

namespace ColumnFile

/-! ## (1) Streams -/

namespace StripeImage

variable {image : StripeImage} {total count column : Nat}

/-- **A list of streams is bounded** by a count of columns, a count of streams and the octets. -/
structure Bounded (image : StripeImage) (total count : Nat) : Prop where
  count : image.footer.streams.length ≤ count
  column : ∀ e ∈ image.footer.streams, e.column < total
  length : ∀ e ∈ image.footer.streams, e.length ≤ image.data.length
  padding : ∀ e ∈ image.footer.streams, e.padding < 8

/-- An image without streams is bounded. -/
theorem bounded_empty (total : Nat) : ({} : StripeImage).Bounded total 0 := by
  refine ⟨Nat.le_refl 0, ?_, ?_, ?_⟩
  · intro e he
    cases he
  · intro e he
    cases he
  · intro e he
    cases he

/-- An image is bounded by more. -/
theorem Bounded.mono (h : image.Bounded total count) {count' : Nat} (hle : count ≤ count') :
    image.Bounded total count' :=
  ⟨Nat.le_trans h.count hle, h.column, h.length, h.padding⟩

/-- **One more stream** keeps the list bounded. -/
theorem put_bounded (h : image.Bounded total count) (hcolumn : column < total) (kind : StreamKind)
    (stream : Bytes) {align : Nat} (hpositive : 0 < align) (halign : align ≤ 8) :
    (image.put kind column stream align).Bounded total (count + 1) := by
  -- what is put is the padding and the stream
  have hdata : (image.put kind column stream align).data.length =
      image.data.length + paddingFor image.data.length align + stream.length := by
    show (image.data ++ List.replicate _ 0 ++ stream).length = _
    rw [List.length_append, List.length_append, List.length_replicate]
  have hpadding : paddingFor image.data.length align < align := Nat.mod_lt _ hpositive
  -- the entries are those from before and the new one
  have hmem : ∀ e ∈ (image.put kind column stream align).footer.streams, e ∈ image.footer.streams ∨
      e = { kind, column, length := stream.length,
            padding := paddingFor image.data.length align } := by
    intro e he
    rcases List.mem_append.mp he with he | he
    · exact .inl he
    · exact .inr (List.mem_singleton.mp he)
  refine ⟨?_, ?_, ?_, ?_⟩
  · show (image.footer.streams ++ [_]).length ≤ count + 1
    rw [List.length_append, List.length_singleton]
    exact Nat.succ_le_succ h.count
  · intro e he
    rcases hmem e he with he | rfl
    · exact h.column e he
    · exact hcolumn
  · intro e he
    rw [hdata]
    rcases hmem e he with he | rfl
    · have hle := h.length e he
      omega
    · exact Nat.le_add_left _ _
  · intro e he
    rcases hmem e he with he | rfl
    · exact h.padding e he
    · exact Nat.lt_of_lt_of_le hpadding halign

/-- One more bitmap, if there is one, keeps the list bounded. -/
theorem putBitmap_bounded (h : image.Bounded total count) (hcolumn : column < total)
    (kind : StreamKind) (bitmap : Option Bitmap) :
    (image.putBitmap kind column bitmap).Bounded total (count + 1) := by
  cases bitmap with
  | none => exact h.mono (Nat.le_succ count)
  | some b => exact put_bounded h hcolumn kind b.toBytes Nat.one_pos (by decide)

/-- The encoding of a column leaves an image bounded. -/
theorem putEncoding_bounded (h : image.Bounded total count) (encoding : ColumnEncoding) :
    (image.putEncoding encoding).Bounded total count :=
  ⟨h.count, h.column, h.length, h.padding⟩

end StripeImage

/-! ## (2) Columns -/

namespace Column

variable [BlockLibrary] {spec : ColumnSpec} {format : StorageFormat} {c : Column}
  {cells : List Cell}

/-- The data of a column that holds cells is aligned to at most eight octets. -/
theorem Holds.align_bounds (hc : c.Holds spec format cells) : 0 < c.align ∧ c.align ≤ 8 := by
  unfold align
  by_cases hplain : c.stage.codec.isPlain = true
  · rw [if_pos hplain]
    cases hc with
    | fixed hrows _ _ =>
        dsimp only
        rw [hrows.align_eq]
        exact align_le hrows.valid
    | varying hrows _ _ =>
        dsimp only
        rw [hrows.align_eq]
        exact align_le hrows.valid
  · rw [if_neg hplain]
    exact ⟨Nat.one_pos, by decide⟩

/-- **The lengths that the encodings of a column record** are within bounds when its rows are. -/
theorem Holds.encoding_sized (hc : c.Holds spec format cells) (hcount : cells.length < 2 ^ 60) :
    c.encoding.Sized := by
  cases hc with
  | @fixed rows stage attributes _ _ _ hrows hinside hstage =>
      have hlength := FixedColumn.length_data hrows
      have hwidth := FixedColumn.fixedWidth_le hrows.width_eq
      -- there are no more slots than rows, and no slot is longer than eight octets
      have hslots : FixedColumn.slots format rows.nulls ≤ cells.length := by
        rw [hrows.nulls_eq]
        unfold FixedColumn.slots
        cases format with
        | padded =>
            dsimp only
            refine Nat.le_of_eq ?_
            rw [Nulls.rows_ofMarks, List.length_map, List.length_map]
        | dense =>
            dsimp only
            rw [Nulls.nonNull_ofMarks]
            refine Nat.le_trans List.countP_le_length (Nat.le_of_eq ?_)
            rw [List.length_map, List.length_map]
      refine ⟨?_, Nat.two_pow_pos 64⟩
      show rows.data.toList.length < 2 ^ 64
      rw [hlength]
      have hproduct := Nat.mul_le_mul hslots hwidth
      omega
  | @varying rows stage offsetsStage attributes _ _ _ hrows hstage hoffsets =>
      have hsmall := hrows.small
      have hoffsetsCount : rows.offsets.size = cells.length + 1 := by
        rw [← Array.length_toList, hrows.offsets_eq, List.length_map, length_boundsFrom,
          length_storedFrom]
      constructor
      · show rows.data.toList.length < 2 ^ 64
        omega
      · show VariableColumn.offsetWidth * rows.offsets.size < 2 ^ 64
        rw [hoffsetsCount, VariableColumn.offsetWidth]
        omega

omit [BlockLibrary] in
/-- **The streams of one more column** keep the list bounded. -/
theorem imageWith_bounded {image : StripeImage} {total count i : Nat}
    (h : image.Bounded total count) (hi : i < total) (halign : 0 < c.align ∧ c.align ≤ 8)
    (data : Bytes) (offsets : Option Bytes) :
    (c.imageWith i image data offsets).Bounded total (count + 4) := by
  obtain ⟨hpositive, hle⟩ := halign
  have hpresent := StripeImage.putBitmap_bounded h hi .present
    (if c.hasNull then c.nulls.bitmap else none)
  have hdata := StripeImage.put_bounded hpresent hi .data data hpositive hle
  unfold imageWith
  dsimp only
  refine StripeImage.putEncoding_bounded (StripeImage.putBitmap_bounded ?_ hi .toast c.toastRows)
    c.encoding
  cases offsets with
  | none => exact hdata.mono (Nat.le_succ _)
  | some bs =>
      cases c.offsetsEncoding with
      | none => exact hdata.mono (Nat.le_succ _)
      | some encoding =>
          have hoffsetsAlign : 0 < offsetsAlign encoding.1 ∧ offsetsAlign encoding.1 ≤ 8 := by
            unfold offsetsAlign
            split
            · exact ⟨by decide, by decide⟩
            · exact ⟨by decide, by decide⟩
          exact StripeImage.put_bounded hdata hi .offsets bs hoffsetsAlign.1 hoffsetsAlign.2

end Column

/-! ## (3) Column sets -/

namespace ColumnSet

variable [BlockLibrary] {format : StorageFormat} {cells : Nat → List Cell} {i : Nat}
  {image image' : StripeImage} {columns columns' : List Column} {schema : List ColumnSpec}

/-- **The streams and encodings of columns** are bounded. -/
theorem serializeFrom_bounded {total count rows : Nat}
    (hs : HoldsFrom format cells i columns schema) (hrows : ∀ c ∈ columns, c.rows = rows)
    (hcount : rows < 2 ^ 60) (htotal : i + columns.length ≤ total)
    (h : serializeFrom i image columns = (.ok image', columns'))
    (himage : image.Bounded total count) (hencodings : ∀ e ∈ image.footer.encodings, e.Sized) :
    image'.Bounded total (count + 4 * columns.length) ∧
      (∀ e ∈ image'.footer.encodings, e.Sized) ∧
      image'.footer.encodings.length = image.footer.encodings.length + columns.length := by
  induction hs generalizing image columns' count with
  | nil =>
      cases h
      exact ⟨himage, hencodings, rfl⟩
  | @cons i c spec columns schema hc hrest ih =>
      rw [List.length_cons] at htotal
      obtain ⟨between, c', rest', hfirst, hothers, rfl⟩ := serializeFrom_cons h
      obtain ⟨data, offsets, c₁, hdata, hoffsets⟩ := Column.serialize_eq_ok hfirst
      rw [Column.serialize_eq _ _ hdata hoffsets, Prod.mk.injEq, Except.ok.injEq] at hfirst
      obtain ⟨rfl, -⟩ := hfirst
      -- the encoded column holds the same cells
      have hc₁ := Column.encodeData_holds hc
      rw [hdata] at hc₁
      have hc' := Column.encodeOffsets_holds hc₁
      rw [hoffsets] at hc'
      have hcells : (cells i).length < 2 ^ 60 := by
        rw [← hc.rows_eq, hrows c List.mem_cons_self]
        exact hcount
      have hi : i < total := by omega
      have hbounded := Column.imageWith_bounded himage hi hc'.align_bounds data offsets
      have hsized : ∀ e ∈ (c'.imageWith i image data offsets).footer.encodings, e.Sized := by
        intro e he
        rw [Column.encodings_imageWith] at he
        rcases List.mem_append.mp he with he | he
        · exact hencodings e he
        · rw [List.mem_singleton.mp he]
          exact hc'.encoding_sized hcells
      have htotal' : i + 1 + columns.length ≤ total := by omega
      obtain ⟨hbounded', hsized', hlength⟩ :=
        ih (fun c hmem => hrows c (List.mem_cons_of_mem _ hmem)) htotal' hothers hbounded hsized
      refine ⟨?_, hsized', ?_⟩
      · rw [List.length_cons]
        exact hbounded'.mono (by omega)
      · rw [hlength, Column.encodings_imageWith, List.length_append, List.length_singleton,
          List.length_cons, Nat.add_assoc, Nat.add_comm 1]

/-- **The footer of the image of a column set** is within the bounds of a message, when the columns,
the rows and the octets are few enough. -/
theorem serialize_sized {s s' : ColumnSet} (hs : HoldsFrom format cells 0 s.columns schema)
    (hcolumns : schema.length < 2 ^ 30) (hcount : s.rows < 2 ^ 60)
    (h : s.serialize = (.ok image, s')) (hlength : image.data.length < 2 ^ 64) :
    image.footer.Sized := by
  obtain ⟨hrows, hfrom⟩ := serialize_eq_ok h
  have hwidth := hs.length_eq
  obtain ⟨hbounded, hsized, hencodings⟩ := serializeFrom_bounded
    hs hrows hcount (Nat.le_of_eq (Nat.zero_add _)) hfrom (StripeImage.bounded_empty _) (by
      intro e he
      cases he)
  have hfew := hbounded.count
  refine ⟨by omega, ?_, ?_, hsized⟩
  · intro e he
    have hcolumn := hbounded.column e he
    have hle := hbounded.length e he
    have hpadding := hbounded.padding e he
    exact ⟨by omega, by omega, by omega⟩
  · rw [hencodings]
    show 0 + s.columns.length < 2 ^ 32
    omega

end ColumnSet

end ColumnFile
