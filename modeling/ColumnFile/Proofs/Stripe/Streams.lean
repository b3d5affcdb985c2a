import ColumnFile.Proofs.Column.Described
import ColumnFile.Proofs.Stripe.RoundTrip

/-! # Where the streams of a stripe are

The streams of a stripe come column by column and, within a column, in a fixed order. What stands
before each of them are zeros, no more than it takes to align it, and how it has to be aligned can
be told from what the footer records.

* **`StripeImage.Placed`** — every stream of an image is aligned, behind zeros; `put_placed` is one
  more.
* **`StripeFooter.alignment`** — the alignment of a stream, as its footer and the schema tell it.
* **`Column.streamKinds`** — the streams of a column, in their order.
* **`ColumnSet.serialize_streams`** — the streams and the encodings of every column set. -/

namespace ColumnFile

/-! ## (1) Places -/

/-- **How many octets** streams take with what stands before them. -/
def StreamEntry.extentOf (entries : List StreamEntry) : Nat :=
  (entries.map fun e => e.padding + e.length).sum

namespace StripeImage

/-- Padding is shorter than the alignment that it is for. -/
theorem paddingFor_lt (position : Nat) {align : Nat} (halign : 0 < align) :
    paddingFor position align < align :=
  Nat.mod_lt _ halign

/-- **Padding leads to a multiple** of the alignment. -/
theorem dvd_paddingFor (position : Nat) {align : Nat} (halign : 0 < align) :
    align ∣ position + paddingFor position align := by
  have hlt := Nat.mod_lt position halign
  have hpos : position % align + (align - position % align) = align :=
    Nat.add_sub_of_le (Nat.le_of_lt hlt)
  rw [Nat.dvd_iff_mod_eq_zero, paddingFor, Nat.add_mod_mod, ← Nat.mod_add_mod, hpos, Nat.mod_self]

variable {image : StripeImage} {need : StreamEntry → Nat}

/-- **The streams of an image are placed** as they need it: each one is at a multiple of its
alignment, behind fewer zeros than that. -/
def Placed (image : StripeImage) (need : StreamEntry → Nat) : Prop :=
  ∀ before e after, image.footer.streams = before ++ e :: after →
    e.padding < need e ∧
      (image.data.drop (StreamEntry.extentOf before)).take e.padding = Bytes.zeros e.padding ∧
      need e ∣ StreamEntry.extentOf before + e.padding

/-- An image without streams has them in place. -/
theorem placed_empty (need : StreamEntry → Nat) : ({} : StripeImage).Placed need := by
  intro before e after h
  cases before <;> cases h

/-- Streams before another take no more octets than there are. -/
theorem Laid.extent_le (h : image.Laid) {before after : List StreamEntry} {e : StreamEntry}
    (hstreams : image.footer.streams = before ++ e :: after) :
    StreamEntry.extentOf before + e.padding ≤ image.data.length := by
  have hsum : StreamEntry.extentOf image.footer.streams = image.data.length := h
  rw [hstreams, StreamEntry.extentOf, List.map_append, List.sum_append, List.map_cons,
    List.sum_cons] at hsum
  rw [StreamEntry.extentOf]
  omega

/-- **One more stream** is placed behind as many zeros as it needs, and the others stay where they
are. -/
theorem put_placed (hlaid : image.Laid) (h : image.Placed need) (stream : Bytes) {kind : StreamKind}
    {column align : Nat} (halign : 0 < align)
    (hneed : ∀ length padding, need { kind, column, length, padding } = align) :
    (image.put kind column stream align).Placed need := by
  intro before e after hstreams
  have hdata : (image.put kind column stream align).data =
      image.data ++ (Bytes.zeros (paddingFor image.data.length align) ++ stream) :=
        List.append_assoc _ _ _
  rw [hdata]
  change image.footer.streams ++ [_] = before ++ e :: after at hstreams
  rcases List.eq_nil_or_concat after with rfl | ⟨after', last, rfl⟩
  · -- the stream that was put
    obtain ⟨rfl, hlast⟩ := List.append_inj' hstreams rfl
    cases hlast
    have hextent : StreamEntry.extentOf image.footer.streams = image.data.length := hlaid
    rw [hneed, hextent, List.drop_left]
    refine ⟨paddingFor_lt _ halign, ?_, dvd_paddingFor _ halign⟩
    exact List.take_left' List.length_replicate
  · -- a stream that was there
    rw [List.concat_eq_append, ← List.cons_append, ← List.append_assoc] at hstreams
    obtain ⟨hold, -⟩ := List.append_inj' hstreams rfl
    obtain ⟨hlt, hzeros, hdvd⟩ := h before e after' hold
    have hinside := hlaid.extent_le hold
    refine ⟨hlt, ?_, hdvd⟩
    rw [List.drop_append_of_le_length (by omega), List.take_append_of_le_length]
    · exact hzeros
    · rw [List.length_drop]
      omega

/-- One more bitmap needs no alignment. -/
theorem putBitmap_placed (hlaid : image.Laid) (h : image.Placed need) {kind : StreamKind}
    {column : Nat} (bitmap : Option Bitmap)
    (hneed : ∀ length padding, need { kind, column, length, padding } = 1) :
    (image.putBitmap kind column bitmap).Placed need := by
  cases bitmap with
  | none => exact h
  | some b => exact put_placed hlaid h _ Nat.one_pos hneed

/-- Which stream of which column an image has at each place. -/
def keys (image : StripeImage) : List (Nat × StreamKind) := image.footer.streams.map fun e =>
    (e.column, e.kind)

/-- A stream is the last one. -/
theorem keys_put (image : StripeImage) (kind : StreamKind) (column : Nat) (stream : Bytes)
    (align : Nat) :
    (image.put kind column stream align).keys = image.keys ++ [(column, kind)] :=
  List.map_append

/-- A bitmap is the last stream, if there is one. -/
theorem keys_putBitmap (image : StripeImage) (kind : StreamKind) (column : Nat)
    (bitmap : Option Bitmap) :
    (image.putBitmap kind column bitmap).keys =
      image.keys ++ if bitmap.isSome then [(column, kind)] else [] := by
  cases bitmap with
  | none => exact (List.append_nil _).symm
  | some b => exact keys_put ..

end StripeImage

/-! ## (2) One column -/

namespace Column

variable {spec : ColumnSpec} {c c₁ c' : Column} {i : Nat} {image : StripeImage}
  {need : StreamEntry → Nat}
  {data : Bytes} {offsets : Option Bytes}

/-- **The streams of a column**, in their order. -/
def streamKinds (c : Column) : List StreamKind :=
  (if c.hasNull then [.present] else []) ++ [.data] ++
    (if c.offsetsEncoding.isSome then [.offsets] else []) ++ if c.toastRows.isSome then
      [.toast] else []

/-- **How the streams of a column need to be aligned**: its data and its offsets as their encodings
tell, bitmaps not at all. -/
structure Needs (c : Column) (i : Nat) (need : StreamEntry → Nat) : Prop where
  present : ∀ length padding, need { kind := .present, column := i, length, padding } = 1
  data : ∀ length padding, need { kind := .data, column := i, length, padding } = c.align
  offsets : ∀ length padding choice size, c.offsetsEncoding = some (choice, size) →
    need { kind := .offsets, column := i, length, padding } = offsetsAlign choice
  toast : ∀ length padding, need { kind := .toast, column := i, length, padding } = 1

/-- Offsets are aligned to something. -/
theorem offsetsAlign_pos (choice : EncodingChoice) : 0 < offsetsAlign choice := by
  unfold offsetsAlign
  split <;> decide

/-- **The streams of a column** are placed behind those of the columns before it. -/
theorem imageWith_placed (halign : 0 < c.align) (hneeds : c.Needs i need) (hlaid : image.Laid)
    (h : image.Placed need) : (c.imageWith i image data offsets).Placed need := by
  unfold imageWith
  dsimp only
  have hpresent := StripeImage.putBitmap_placed hlaid h (if c.hasNull then c.nulls.bitmap else none)
    hneeds.present
  have hlaid' := StripeImage.putBitmap_laid hlaid .present i
    (if c.hasNull then c.nulls.bitmap else none)
  have hdata := StripeImage.put_placed hlaid' hpresent data halign hneeds.data
  have hlaid'' := StripeImage.put_laid hlaid' .data i data c.align
  cases offsets with
  | none => exact StripeImage.putBitmap_placed hlaid'' hdata c.toastRows hneeds.toast
  | some bs =>
      cases hchoice : c.offsetsEncoding with
      | none => exact StripeImage.putBitmap_placed hlaid'' hdata c.toastRows hneeds.toast
      | some encoding =>
          obtain ⟨choice, size⟩ := encoding
          have hoffsets := StripeImage.put_placed hlaid'' hdata bs (offsetsAlign_pos choice)
            fun length padding => hneeds.offsets length padding choice size hchoice
          exact StripeImage.putBitmap_placed (StripeImage.put_laid hlaid'' .offsets i bs _) hoffsets
            c.toastRows
            hneeds.toast

/-- **The streams of a column** come in their order. -/
theorem keys_imageWith (hnull : c.hasNull = true → c.nulls.bitmap.isSome = true)
    (hoffsets : offsets.isSome = c.offsetsEncoding.isSome) :
    (c.imageWith i image data offsets).keys = image.keys ++ c.streamKinds.map (i, ·) := by
  have hpresent : (if c.hasNull then c.nulls.bitmap else none).isSome = c.hasNull := by
    cases hhas : c.hasNull with
    | false => rfl
    | true => exact hnull hhas
  have hmap (b : Bool) (kind : StreamKind) :
      (if b then [kind] else []).map (i, ·) = if b then [(i, kind)] else [] := by
    cases b <;> rfl
  rw [streamKinds, List.map_append, List.map_append, List.map_append, hmap, hmap, hmap,
    ← List.append_assoc, ← List.append_assoc, ← List.append_assoc]
  change (StripeImage.putBitmap _ .toast i c.toastRows).keys = _
  rw [StripeImage.keys_putBitmap]
  congr 1
  cases offsets with
  | none =>
      rw [← hoffsets]
      dsimp only
      rw [StripeImage.keys_put, StripeImage.keys_putBitmap, hpresent]
      exact (List.append_nil _).symm
  | some bs =>
      obtain ⟨⟨choice, size⟩, hchoice⟩ := Option.isSome_iff_exists.mp hoffsets.symm
      rw [hchoice]
      dsimp only
      rw [StripeImage.keys_put, StripeImage.keys_put, StripeImage.keys_putBitmap, hpresent]
      rfl

variable [BlockLibrary]

/-- **A column that was serialized** keeps to its description, puts the streams that it had, and has
as many rows and nulls as before. -/
theorem serialize_ok (hc : c.Described spec) {image' : StripeImage}
    (h : c.serialize i image = (.ok image', c')) :
    ∃ data offsets, image' = c'.imageWith i image data offsets ∧ c'.Described spec ∧
      offsets.isSome = c'.offsetsEncoding.isSome ∧ c'.streamKinds = c.streamKinds := by
  obtain ⟨data, offsets, c₁, hdata, hoffsets⟩ := serialize_eq_ok h
  have hfirst : c₁ = c.encodeData.2 := by rw [hdata]
  have hsecond : c' = c₁.encodeOffsets.2 := by rw [hoffsets]
  have hdescribed : c'.Described spec := by
    rw [hsecond, hfirst]
    exact encodeOffsets_described (encodeData_described hc)
  rw [serialize_eq i image hdata hoffsets, Prod.mk.injEq, Except.ok.injEq] at h
  refine ⟨data, offsets, h.1.symm, hdescribed, isSome_offsets hoffsets, ?_⟩
  obtain ⟨hnulls, htoast, -, -⟩ := encode_keeps hdata hoffsets
  rw [streamKinds, streamKinds, hdescribed.isSome_offsetsEncoding, hc.isSome_offsetsEncoding,
    htoast, hasNull, hasNull, nonNull, nonNull, rows, rows, hnulls]

/-- **Serializing a column**, whatever comes of it, asks for its streams and does nothing else. -/
theorem serialize_made (hc : Made spec c) (i : Nat) (image : StripeImage) :
    Made spec (c.serialize i image).2 := by
  have hdata := hc.encodeData
  unfold serialize
  dsimp only
  split
  · rename_i e c₁ hfirst
    rw [hfirst] at hdata
    exact hdata
  · rename_i data c₁ hfirst
    rw [hfirst] at hdata
    have hoffsets := hdata.encodeOffsets
    split
    · rename_i e c₂ hsecond
      rw [hsecond] at hoffsets
      exact hoffsets
    · rename_i offsets c₂ hsecond
      rw [hsecond] at hoffsets
      exact hoffsets

omit [BlockLibrary] in
/-- A column has the stream of its marks when it has a null. -/
theorem present_mem_streamKinds (c : Column) : .present ∈ c.streamKinds ↔ c.hasNull = true := by
  rw [streamKinds]
  cases c.hasNull <;> cases c.offsetsEncoding.isSome <;> cases c.toastRows.isSome <;> decide

end Column

/-! ## (3) Column after column -/

/-- **The alignment of a stream**, as the schema and the recorded encodings tell it: data that are
stored as they are have that of their column, offsets that are stored as they are have that of a
word, and everything else has none. -/
def StripeFooter.alignment (footer : StripeFooter) (schema : List ColumnSpec) (e : StreamEntry) :
    Nat :=
  match e.kind with
  | .data => if (footer.choiceOf e).kind = .plain then
      (schema[e.column]?.map ColumnSpec.align).getD 1 else 1
  | .offsets => if (footer.choiceOf e).kind = .plain then 4 else 1
  | .present | .toast => 1

namespace ColumnSet

variable [BlockLibrary] {schema : List ColumnSpec} {columns columns' : List Column} {i : Nat}
  {image image' : StripeImage} {need : StreamEntry → Nat}

/-- **Serializing columns** puts their streams column by column. -/
theorem serializeFrom_streams (hs : List.Forall₂ Column.Described schema columns)
    (h : serializeFrom i image columns = (.ok image', columns')) :
    List.Forall₂ Column.Described schema columns' ∧
      image'.keys = image.keys ++ (columns.zipIdx i).flatMap
        (fun (c, k) => c.streamKinds.map (k, ·)) := by
  induction hs generalizing i image columns' with
  | nil =>
      cases h
      exact ⟨.nil, (List.append_nil _).symm⟩
  | @cons spec c schema columns hc hrest ih =>
      obtain ⟨between, c', rest', hfirst, hothers, rfl⟩ := serializeFrom_cons h
      obtain ⟨data, offsets, rfl, hc', hoffsets, hkinds⟩ := Column.serialize_ok hc hfirst
      obtain ⟨hrest', hkeys⟩ := ih hothers
      refine ⟨.cons hc' hrest', ?_⟩
      rw [hkeys, Column.keys_imageWith hc'.isSome_bitmap hoffsets, hkinds, List.zipIdx_cons,
        List.flatMap_cons, List.append_assoc]

/-- **The streams of columns** are placed as the columns need it. -/
theorem serializeFrom_placed (hs : List.Forall₂ Column.Described schema columns)
    (h : serializeFrom i image columns = (.ok image', columns')) (hlaid : image.Laid)
    (hplaced : image.Placed need)
    (hneeds : ∀ (k : Nat) (c' : Column), columns'[k]? = some c' → c'.Needs (i + k) need) :
    image'.Placed need := by
  induction hs generalizing i image columns' with
  | nil =>
      cases h
      exact hplaced
  | @cons spec c schema columns hc hrest ih =>
      obtain ⟨between, c', rest', hfirst, hothers, rfl⟩ := serializeFrom_cons h
      obtain ⟨data, offsets, rfl, hc', -, -⟩ := Column.serialize_ok hc hfirst
      refine ih hothers (Column.imageWith_laid c' i hlaid data offsets)
        (Column.imageWith_placed hc'.align_pos (hneeds 0 c' rfl) hlaid hplaced) fun k d hd => ?_
      have hneed := hneeds (k + 1) d hd
      rw [Nat.add_assoc, Nat.add_comm 1 k]
      exact hneed

omit [BlockLibrary] in
/-- What the footer of a stripe says of a column is what its streams need. -/
theorem needs_alignment {footer : StripeFooter} {spec : ColumnSpec} {c : Column} {k : Nat}
    (hc : c.Described spec) (hspec : schema[k]? = some spec)
    (hencoding : footer.encodings[k]? = some c.encoding) : c.Needs k (footer.alignment schema) := by
  refine ⟨fun _ _ => rfl, fun length padding => ?_, fun length padding choice size hchoice => ?_,
    fun _ _ => rfl⟩
  · have hdata : footer.choiceOf { kind := .data, column := k, length, padding } = c.choice := by
      rw [StripeFooter.choiceOf, hencoding]
      rfl
    rw [StripeFooter.alignment, hdata, hspec, hc.align_eq]
    rfl
  · have hoffsets : footer.choiceOf { kind := .offsets, column := k, length, padding } =
      choice := by
      rw [StripeFooter.choiceOf, hencoding]
      dsimp only
      rw [Column.encoding, hchoice]
      rfl
    rw [StripeFooter.alignment, hoffsets]
    rfl

/-! ## (4) Column sets -/

/-- **The column sets of a schema**: each column is one of the description at its place. -/
def Made (schema : List ColumnSpec) (s : ColumnSet) : Prop :=
  List.Forall₂ Column.Made schema s.columns

variable {s s' : ColumnSet}

/-- **New columns** are those of their schema. -/
theorem newFrom_made {format : StorageFormat} {choices : Nat → EncodingChoice}
    {offsets : EncodingChoice} {attributes : List Attributes}
    (h : newFrom format choices offsets i schema attributes = .ok columns) :
    List.Forall₂ Column.Made schema columns := by
  induction schema generalizing i attributes columns with
  | nil =>
      cases h
      exact .nil
  | cons spec schema ih =>
      obtain ⟨c, hc, h⟩ := bind_eq_ok h
      obtain ⟨rest, hrest, h⟩ := bind_eq_ok h
      cases h
      exact .cons (.new hc) (ih hrest)

/-- **New columns** are as the schema says. -/
theorem new_made {format : StorageFormat} {choices : Nat → EncodingChoice}
    {offsets : EncodingChoice} {attributes : List Attributes}
    (h : ColumnSet.new schema format choices offsets attributes = .ok s) :
    s.Made schema := by
  obtain ⟨columns, hcolumns, h⟩ := bind_eq_ok h
  cases h
  exact newFrom_made hcolumns

omit [BlockLibrary] in
/-- There is a place for the streams of every column. -/
theorem length_locateFrom {found located : List ColumnStreams} {entries : List StreamEntry}
    {data : Bytes} (h : StripeFooter.locateFrom found entries data = .ok located) :
    located.length = found.length := by
  induction entries generalizing found data with
  | nil =>
      cases h
      rfl
  | cons e entries ih =>
      rw [StripeFooter.locateFrom] at h
      split at h
      · cases h
      · split at h
        · cases h
        · rw [ih h, List.length_set]

/-- **Decoded columns** are those of the schema that they are read with. -/
theorem decodeAll_made {format : StorageFormat} {rows : Nat} {encodings : List ColumnEncoding}
    {streams : List ColumnStreams} (hencodings : encodings.length = schema.length)
    (hstreams : streams.length = schema.length)
    (h : decodeAll format rows schema encodings streams = .ok columns) :
    List.Forall₂ Column.Made schema columns := by
  induction schema generalizing encodings streams columns with
  | nil =>
      cases h
      exact .nil
  | cons spec schema ih =>
      obtain ⟨encoding, encodings, rfl⟩ := List.exists_cons_of_length_eq_add_one hencodings
      obtain ⟨stream, streams, rfl⟩ := List.exists_cons_of_length_eq_add_one hstreams
      obtain ⟨c, hc, h⟩ := bind_eq_ok h
      obtain ⟨rest, hrest, h⟩ := bind_eq_ok h
      cases h
      exact .cons (.decoded hc) (ih (Nat.succ.inj hencodings) (Nat.succ.inj hstreams) hrest)

/-- **Columns that are decoded** are as the schema says. -/
theorem decode_made {format : StorageFormat} {footer : StripeFooter} {rows : Nat} {data : Bytes}
    (h : decode schema format footer rows data = .ok s) : s.Made schema := by
  unfold decode at h
  split at h
  · cases h
  · rename_i hencodings
    obtain ⟨streams, hstreams, h⟩ := bind_eq_ok h
    obtain ⟨columns, hcolumns, h⟩ := bind_eq_ok h
    cases h
    have hlength : streams.length = schema.length :=
      (length_locateFrom hstreams).trans List.length_replicate
    exact decodeAll_made (Decidable.not_not.mp hencodings) hlength hcolumns

/-- **A call on one column**, whatever comes of it. -/
theorem modify_made (hs : s.Made schema) {step : Column → Attempt Column}
    (hstep : ∀ {spec c}, Column.Made spec c → Column.Made spec (step c).2) (i : Nat) :
    (s.modify i step).2.Made schema := by
  unfold modify
  cases hcolumn : s.columns[i]? with
  | none => exact hs
  | some c =>
      show List.Forall₂ Column.Made schema (s.columns.set i (step c).2)
      rw [List.forall₂_iff_get]
      obtain ⟨hlength, hall⟩ := List.forall₂_iff_get.mp hs
      refine ⟨by rw [hlength, List.length_set], fun k hk hk' => ?_⟩
      rw [List.length_set] at hk'
      have hcolumn' := hall k hk hk'
      rw [List.get_eq_getElem, List.get_eq_getElem, List.getElem_set]
      split
      · rename_i heq
        obtain rfl : i = k := heq
        rw [List.getElem?_eq_getElem hk', Option.some.injEq] at hcolumn
        subst hcolumn
        exact hstep hcolumn'
      · exact hcolumn'

/-- **Serializing columns**, whatever comes of it. -/
theorem serializeFrom_made (hs : List.Forall₂ Column.Made schema columns) (i : Nat)
    (image : StripeImage) :
    List.Forall₂ Column.Made schema (serializeFrom i image columns).2 := by
  induction hs generalizing i image with
  | nil => exact .nil
  | @cons spec c schema columns hc hrest ih =>
      have hc' := Column.serialize_made hc i image
      rw [serializeFrom]
      split
      · rename_i e c' hfirst
        rw [hfirst] at hc'
        exact .cons hc' hrest
      · rename_i between c' hfirst
        rw [hfirst] at hc'
        exact .cons hc' (ih (i + 1) between)

/-- **Columns stay as the schema says** when they are written. -/
theorem serialize_made (hs : s.Made schema) : s.serialize.2.Made schema := by
  unfold serialize
  split
  · exact hs
  · exact serializeFrom_made hs 0 {}

/-- **The streams of a stripe.** Whatever calls led to the columns of a set, new ones or decoded
ones, the image that is made of them has the streams in the order of the schema and, within a
column, those of the column in their order; the bitmap of nulls is among these exactly when some row
reads as null. Together with what stands before them they take all octets of the image. Before each
stream stand fewer octets than its alignment, all of them zero, and lead to a multiple of it: for
data that are recorded as not encoded that is the alignment in the description of the column, for
such offsets it is four. Each column has one encoding, at its place. -/
theorem serialize_streams (hs : s.Made schema) {image : StripeImage}
    (h : s.serialize = (.ok image, s')) :
    image.footer.streams.map (fun e => (e.column, e.kind)) =
        s.columns.zipIdx.flatMap (fun (c, k) => c.streamKinds.map (k, ·)) ∧
      (∀ c ∈ s.columns, .present ∈ c.streamKinds ↔ ∃ row, c.value row = .ok none) ∧
      StreamEntry.extentOf image.footer.streams = image.data.length ∧
      (∀ before e after, image.footer.streams = before ++ e :: after →
        e.padding < image.footer.alignment schema e ∧
          (image.data.drop (StreamEntry.extentOf before)).take e.padding =
            List.replicate e.padding 0 ∧
          image.footer.alignment schema e ∣ StreamEntry.extentOf before + e.padding) ∧
      image.footer.encodings = s'.columns.map Column.encoding ∧
      image.footer.encodings.length = schema.length := by
  obtain ⟨-, hfrom⟩ := serialize_eq_ok h
  -- the columns are as the schema says before they are encoded and behind it
  have hdescribed : List.Forall₂ Column.Described schema s.columns := hs.imp fun _ _ hc =>
    hc.described
  obtain ⟨hdescribed', hkeys⟩ := serializeFrom_streams hdescribed hfrom
  have hlaid : image.Laid := serializeFrom_laid StripeImage.laid_empty hfrom
  have hencodings : image.footer.encodings = s'.columns.map Column.encoding :=
    serializeFrom_encodings hfrom
  -- the alignment of a stream is that of its column
  have hplaced : image.Placed (image.footer.alignment schema) := by
    refine serializeFrom_placed hdescribed hfrom StripeImage.laid_empty (StripeImage.placed_empty _)
      fun k c' hc' => ?_
    obtain ⟨spec, hspec, hdescribed⟩ := partner hdescribed'.flip hc'
    rw [Nat.zero_add]
    refine needs_alignment hdescribed hspec ?_
    rw [hencodings, List.getElem?_map, hc', Option.map_some]
  refine ⟨hkeys, fun c hc => ?_, hlaid, hplaced, hencodings, ?_⟩
  · obtain ⟨k, hk⟩ := List.mem_iff_getElem?.mp hc
    obtain ⟨spec, -, hcolumn⟩ := partner hdescribed.flip hk
    exact c.present_mem_streamKinds.trans (Column.Described.hasNull_iff hcolumn)
  · rw [hencodings, List.length_map, hdescribed'.length_eq]

omit [BlockLibrary] in
/-- Two rows of a flag, a count and a text, the second count being null: the counts are aligned to
eight octets behind the bitmap, and the offsets of the texts to four. -/
theorem serialize_streams_two_rows :
    let schema : List ColumnSpec :=
  [.ofKind "flag" .byte, .ofKind "count" .long, .ofKind "note" .string]
    ∃ s image s', @Made .verbatim schema s ∧ @serialize .verbatim s = (.ok image, s') ∧
      image.footer.streams.map (fun e => (e.column, e.kind, e.padding)) =
        [(0, .data, 0), (1, .present, 0), (1, .data, 5), (2, .data, 0), (2, .offsets, 1)] ∧
      ∀ before e after, image.footer.streams = before ++ e :: after →
        image.footer.alignment schema e ∣ StreamEntry.extentOf before + e.padding := by
  let _ : BlockLibrary := .verbatim
  have hgrow {schema : List ColumnSpec} {s : ColumnSet} (hs : s.Made schema) (i : Nat)
    (step : Step) :
      (s.modify i step.attempt).2.Made schema := modify_made hs (fun hc => hc.attempt step) i
  have hset : ColumnSet.new [.ofKind "flag" .byte, .ofKind "count" .long, .ofKind "note" .string]
      .padded (fun _ => {}) { kind := .plain } [] = .ok _ := rfl
  have hnew := new_made hset
  have hfirst := hgrow (hgrow (hgrow hnew 0 (.append [1])) 1 (.append [7, 0, 0, 0, 0, 0, 0, 0])) 2
    (.append [97, 98])
  have hboth := hgrow (hgrow (hgrow hfirst 0 (.append [2])) 1 .appendNull) 2 (.append [99])
  obtain ⟨-, -, -, hplaced, -⟩ := serialize_streams hboth rfl
  exact ⟨_, _, _, hboth, rfl, rfl, fun before e after h => (hplaced before e after h).2.2⟩

end ColumnSet

end ColumnFile
