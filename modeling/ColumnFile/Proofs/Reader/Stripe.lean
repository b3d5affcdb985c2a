import ColumnFile.Proofs.Reader.Basic
import ColumnFile.Proofs.Stripe.Sized

/-! # Stripes that were written are found

An entry of a directory, the octets of its stripe and its values out of line, wherever they are in
their files: together they hold rows, and a reader that has them finds the rows.

* **`StripeInformation.Describes`** — an entry that describes octets and values that hold rows.
* **`ColumnSet.serialize_describes`** — the entry of columns that were serialized.
* **`StripeInformation.Describes.finds`** — a reader finds the rows where the octets and the values
  are. -/

namespace ColumnFile

variable [BlockLibrary] {format : StorageFormat} {schema : List ColumnSpec}
  {cells : Nat → List Cell}
  {rows : List Row}

/-! ## (1) Entries -/

/-- **An entry describes** the octets of a stripe and its values out of line, which hold rows. That
they are decoded, and that the footer of the stripe accounts for its data, is promised for columns,
rows and octets that a message can count. Where the stripe and the values are does not matter. -/
structure StripeInformation.Describes (info : StripeInformation) (schema : List ColumnSpec)
    (format : StorageFormat) (stripe values : Bytes) (rows : List Row) : Prop where
  length : stripe.length = info.length
  count : info.rows = rows.length
  toastLength : values.length = info.toastLength
  toastCount : info.toastCount ≤ info.toastLength
  toastColumns : info.toastLengths.length = schema.length
  toastSum : info.toastLengths.sum = info.toastLength
  statistics : info.statistics.length = schema.length
  decodes : schema.length < 2 ^ 30 → rows.length < 2 ^ 60 → info.dataLength < 2 ^ 64 →
    ∃ columns cells, columns.Reads schema cells ∧ Shows schema cells rows ∧
      (∀ i < schema.length, Bytes.slice? values (info.toastLengths.take i).sum
        (externalOf (cells i)).length = some (externalOf (cells i))) ∧
      ∀ footer : FileFooter, footer.schema = schema → footer.format = format →
        footer.decodeStripe info stripe = .ok columns
  laid : schema.length < 2 ^ 30 → rows.length < 2 ^ 60 → info.dataLength < 2 ^ 64 →
    ∃ footer, Message.decode StripeFooter (stripe.drop info.dataLength) = .ok footer ∧
      footer.extent = info.dataLength

/-- **An entry elsewhere** describes the same. -/
theorem StripeInformation.Describes.moved {info : StripeInformation} {stripe values : Bytes}
    (h : info.Describes schema format stripe values rows) (offset toastOffset : Nat) :
    { info with offset, toastOffset }.Describes schema format stripe values rows :=
  ⟨h.length, h.count, h.toastLength, h.toastCount, h.toastColumns, h.toastSum, h.statistics,
    h.decodes, h.laid⟩

/-! ## (2) Values out of line -/

omit [BlockLibrary] in
/-- No value that is stored out of line is empty. -/
theorem Shows.outside_ne_nil (h : Shows schema cells rows) {i : Nat} (hi : i < schema.length)
    {v : Bytes} (hv : .outside v ∈ cells i) : v ≠ [] := by
  obtain ⟨k, hk⟩ := List.mem_iff_getElem?.mp hv
  obtain ⟨row, -, d, -, hshow⟩ := partner (h.column (List.getElem?_eq_getElem hi)) hk
  exact hshow.2.2

omit [BlockLibrary] in
/-- There are no more values out of line than octets of them. -/
theorem countP_outside_le {cells : List Cell} (h : ∀ v, .outside v ∈ cells → v ≠ []) :
    cells.countP Cell.isOutside ≤ (externalOf cells).length := by
  induction cells with
  | nil => exact Nat.le_refl 0
  | cons cell rest ih =>
      have hrest := ih fun v hv => h v (List.mem_cons_of_mem _ hv)
      rw [externalOf, List.flatMap_cons, List.length_append]
      cases cell with
      | outside v =>
          have hpositive := List.length_pos_iff.mpr (h v List.mem_cons_self)
          rw [List.countP_cons_of_pos rfl]
          show _ ≤ v.length + (externalOf rest).length
          omega
      | null =>
          rw [List.countP_cons_of_neg Bool.false_ne_true]
          exact Nat.le_trans hrest (Nat.le_add_left _ _)
      | inline v =>
          rw [List.countP_cons_of_neg Bool.false_ne_true]
          exact Nat.le_trans hrest (Nat.le_add_left _ _)

/-- **All values out of line** are counted by their octets. -/
theorem ColumnSet.toastCount_le {i : Nat} {columns : List Column}
    (hs : ColumnSet.HoldsFrom format cells i columns schema)
    (h : ∀ k, i ≤ k → k < i + schema.length → ∀ v, .outside v ∈ cells k → v ≠ []) :
    ((columns.filterMap Column.toastRows).map Bitmap.count).sum ≤
      (columns.flatMap Column.external).length := by
  induction hs with
  | nil => exact Nat.le_refl 0
  | @cons i c spec columns schema hc hrest ih =>
      rw [List.length_cons] at h
      have hrest' := ih fun k hk hlt => h k (by omega) (by omega)
      have hfirst := countP_outside_le (h i (Nat.le_refl i) (by omega))
      rw [List.flatMap_cons, List.length_append, hc.external_eq, List.filterMap_cons,
        hc.toastRows_eq, VariableColumn.toastOf]
      by_cases hany : (cells i).any Cell.isOutside = true
      · rw [if_pos hany]
        dsimp only
        rw [List.map_cons, List.sum_cons, Bitmap.count_ofList, List.countP_map]
        exact Nat.add_le_add hfirst hrest'
      · rw [if_neg hany]
        exact Nat.le_trans hrest' (Nat.le_add_left _ _)

/-! ## (3) Columns that were serialized -/

omit [BlockLibrary] in
/-- **The values out of line** of a stripe are those of its columns. -/
theorem ColumnSet.sum_externalLengths (s : ColumnSet) :
    s.externalLengths.sum = s.external.length := by
  simp [externalLengths, external, List.length_flatMap]

/-- Columns that hold the cells of rows have as many rows. -/
theorem ColumnSet.rows_eq_length {s : ColumnSet} (hs : HoldsFrom format cells 0 s.columns schema)
    (hshows : Shows schema cells rows) (hschema : schema ≠ []) : s.rows = rows.length := by
  obtain ⟨columns⟩ := s
  cases hs with
  | nil => exact absurd rfl hschema
  | cons hc hrest =>
      show Column.rows _ = _
      rw [hc.rows_eq]
      exact (hshows.column rfl).length_eq

/-- The values out of line of columns are joined. -/
theorem ColumnSet.slice?_external {s : ColumnSet} (hs : HoldsFrom format cells 0 s.columns schema)
    {i : Nat} (hi : i < schema.length) :
    Bytes.slice? s.external (s.externalLengths.take i).sum (externalOf (cells i)).length =
      some (externalOf (cells i)) := by
  have hi' : i < s.columns.length := by
    rw [hs.length_eq]
    exact hi
  obtain ⟨spec, -, hholds⟩ := hs.get (List.getElem?_eq_getElem hi')
  rw [Nat.zero_add] at hholds
  have hblock : (s.columns.map Column.external)[i]? = some (externalOf (cells i)) := by
    rw [List.getElem?_map, List.getElem?_eq_getElem hi', Option.map_some, hholds.external_eq]
  have hslice := Bytes.slice?_flatten hblock
  rw [List.map_map, ← List.flatMap_def] at hslice
  exact hslice

/-- **The entry of columns that were serialized** describes their octets and their values out of
line. -/
theorem ColumnSet.serialize_describes (hlibrary : BlockLibrary.Restores) {s s' : ColumnSet}
    {image : StripeImage} (hs : HoldsFrom format cells 0 s.columns schema)
    (hshows : Shows schema cells rows) (hschema : schema ≠ []) (h : s.serialize = (.ok image, s'))
    (offset toastOffset : Nat) {statistics : List ColumnStatistics}
    (hstatistics : statistics.length = schema.length) :
    ({ offset
       dataLength := image.data.length
       footerLength := (Message.encode image.footer).length
       rows := s'.rows
       toastOffset
       toastLength := s'.external.length
       toastCount := s'.toastCount
       toastLengths := s'.externalLengths
       statistics } : StripeInformation).Describes schema format
      (image.data ++ Message.encode image.footer) s'.external rows := by
  obtain ⟨-, hfrom⟩ := serialize_eq_ok h
  have hs' := serializeFrom_holds hs hfrom
  have hcount := rows_eq_length hs hshows hschema
  have hcount' := rows_eq_length hs' hshows hschema
  -- the footer is read back from where it was put
  have hdecode : schema.length < 2 ^ 30 → rows.length < 2 ^ 60 → image.data.length < 2 ^ 64 →
      Message.decode StripeFooter (Message.encode image.footer) = .ok image.footer := by
    intro hcolumns hrows hdata
    exact Message.decode_encode
      (StripeFooter.fits (serialize_sized hs hcolumns (by omega) h hdata)) (by decide)
  refine ⟨List.length_append, hcount', rfl, ?_, ?_, sum_externalLengths s', hstatistics, ?_, ?_⟩
  · refine toastCount_le hs' ?_
    intro k _ hlt v hv
    exact hshows.outside_ne_nil (by omega) hv
  · show (s'.columns.map _).length = schema.length
    rw [List.length_map, hs'.length_eq]
  -- what is decoded shows the rows, and mirrors the columns
  · intro hcolumns hrows hdata
    obtain ⟨decoded, hdecoded, hmirrors⟩ := serialize_decode hlibrary hs (by omega) h
    refine ⟨decoded, cells, reads_of_mirrors hs hmirrors, hshows, fun i hi =>
      slice?_external hs' hi, ?_⟩
    rintro footer rfl rfl
    rw [FileFooter.decodeStripe,
      if_neg (by rw [List.length_append]; exact Nat.not_lt.mpr (Nat.le_add_right _ _)),
      List.drop_left, List.take_left, hdecode hcolumns hrows hdata, ok_bind, hcount', ← hcount]
    exact hdecoded
  · intro hcolumns hrows hdata
    refine ⟨image.footer, ?_, serializeFrom_laid StripeImage.laid_empty hfrom⟩
    rw [List.drop_left]
    exact hdecode hcolumns hrows hdata

/-! ## (4) Reading -/

omit [BlockLibrary] in
/-- Columns that read like the cells of rows have as many rows. -/
theorem ColumnSet.Reads.rows_eq_length {s : ColumnSet} (h : s.Reads schema cells)
    (hshows : Shows schema cells rows) (hschema : schema ≠ []) : s.rows = rows.length := by
  obtain ⟨columns⟩ := s
  cases columns with
  | nil => exact absurd (List.length_eq_zero_iff.mp h.width.symm) hschema
  | cons c rest =>
      have hpositive : 0 < schema.length := List.length_pos_iff.mpr hschema
      have hfirst : c.rows = (cells 0).length := (h.column rfl).rows
      show c.rows = _
      rw [hfirst]
      exact (hshows.column (List.getElem?_eq_getElem hpositive)).length_eq

/-- **A reader finds the rows** of an entry where its stripe and its values out of line are. -/
theorem StripeInformation.Describes.finds {info : StripeInformation} {footer : FileFooter}
    {store : Store} {file : FileId} {toastFile : Option FileId} {stripe values : Bytes}
    (h : info.Describes footer.schema footer.format stripe values rows)
    (hstore : store.foreign = false) (hschema : footer.schema ≠ [])
    (hcolumns : footer.schema.length < 2 ^ 30) (hrows : rows.length < 2 ^ 60)
    (hdata : info.dataLength < 2 ^ 64) (htoastLength : info.toastLength < 2 ^ 64)
    (hwithin : info.offset + info.length ≤ footer.contentLength)
    (hstripe : (store.get file).slice? info.offset stripe.length = some stripe)
    (hvalues : values ≠ [] → ∃ t, toastFile = some t ∧
      (store.get t).slice? info.toastOffset values.length = some values) :
    footer.Finds store file toastFile info rows := by
  obtain ⟨columns, cells, hreads, hshows, hslices, hdecode⟩ := h.decodes hcolumns hrows hdata
  have hslice : ∀ i < footer.schema.length, (cells i).any Cell.isOutside = true →
    ∃ t, toastFile = some t ∧
      (store.get t).slice? (info.toastBase i) (externalOf (cells i)).length =
        some (externalOf (cells i)) := by
    intro i hi hany
    obtain ⟨cell, hmem, hout⟩ := List.any_eq_true.mp hany
    -- some value is stored out of line, so there are octets of them
    have hsome : values ≠ [] := by
      rintro rfl
      have hle := Bytes.le_of_slice? (hslices i hi)
      have hcount := countP_outside_le fun v hv => hshows.outside_ne_nil hi hv
      have hpositive := List.countP_pos_iff.mpr ⟨cell, hmem, hout⟩
      rw [List.length_nil] at hle
      omega
    obtain ⟨t, ht, hplace⟩ := hvalues hsome
    exact ⟨t, ht, Bytes.slice?_slice? hplace (hslices i hi)⟩
  have hsmall : ∀ i < footer.schema.length, (externalOf (cells i)).length < 2 ^ 64 := by
    intro i hi
    have hle := Bytes.le_of_slice? (hslices i hi)
    rw [h.toastLength] at hle
    omega
  obtain ⟨toasted, hfetch, htoasted⟩ := Group.fetchToast_spec hstore hreads hslice hsmall
  refine ⟨hwithin, h.count, stripe, columns, toasted, ?_, h.length, hdecode footer rfl rfl,
    hfetch, ?_⟩
  · rw [Store.read_eq_ok hstore, ← h.length]
    exact hstripe
  · intro g hgroup hfound hfetched
    subst hfound hfetched
    rw [← hgroup] at hschema hreads hshows htoasted
    exact ⟨hreads.rows_eq_length hshows hschema, cells, hreads, hshows, htoasted⟩

end ColumnFile
