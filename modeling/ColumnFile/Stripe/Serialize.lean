import ColumnFile.Stripe.ColumnSet
import ColumnFile.Stripe.Stream

/-! # Writing stripes

The streams of a column set one after another, each behind as many zeros as its alignment takes.

* `StripeImage` — octets and the footer that describes them.
* `StripeImage.put` — one more stream.
* `ColumnSet.serialize` — the image of a column set.
-/

namespace ColumnFile

/-- The **image** of a stripe: its octets and what its footer says of them. -/
structure StripeImage where
  /-- The octets. -/
  data : Bytes := []
  /-- The streams and the encodings. -/
  footer : StripeFooter := {}
deriving DecidableEq, Repr, Inhabited

namespace StripeImage

/-- How many zeros lead from a position to the next multiple of `align`. -/
def paddingFor (position align : Nat) : Nat := (align - position % align) % align

/-- One more stream. -/
def put (image : StripeImage) (kind : StreamKind) (column : Nat) (stream : Bytes) (align : Nat) :
    StripeImage :=
  let padding := paddingFor image.data.length align
  { data := image.data ++ List.replicate padding 0 ++ stream
    footer :=
      { image.footer with
        streams := image.footer.streams ++ [{ kind, column, length := stream.length, padding }] } }

/-- One more stream of octets, if there is one; it needs no alignment. -/
def putBitmap (image : StripeImage) (kind : StreamKind) (column : Nat) :
    Option Bitmap → StripeImage
  | none => image
  | some b => image.put kind column b.toBytes 1

/-- The encodings of one more column. -/
def putEncoding (image : StripeImage) (encoding : ColumnEncoding) : StripeImage :=
  { image with
    footer := { image.footer with encodings := image.footer.encodings ++ [encoding] } }

end StripeImage

namespace Column

/-- The alignment of a stream of offsets: plain ones are aligned to their width. -/
def offsetsAlign (choice : EncodingChoice) : Nat :=
  if choice.kind = .plain then VariableColumn.offsetWidth else 1

variable [BlockLibrary]

/-- Puts the streams of the `i`-th column into the image of a stripe. The bitmap of the rows that
are not null is left out when no row is null. -/
def serialize (i : Nat) (c : Column) (image : StripeImage) : Except Fault StripeImage × Column :=
  let image := image.putBitmap .present i (if c.hasNull then c.nulls.bitmap else none)
  match c.encodeData with
  | (.error e, c) => (.error e, c)
  | (.ok data, c) =>
    let image := image.put .data i data c.align
    match c.encodeOffsets with
    | (.error e, c) => (.error e, c)
    | (.ok offsets, c) =>
      let image :=
        match offsets, c.offsetsEncoding with
        | some offsets, some (choice, _) => image.put .offsets i offsets (offsetsAlign choice)
        | _, _ => image
      (.ok ((image.putBitmap .toast i c.toastRows).putEncoding c.encoding), c)

end Column

namespace ColumnSet

variable [BlockLibrary]

/-- Puts the streams of columns into the image of a stripe, the first being the `i`-th, up to the
first failure. -/
def serializeFrom (i : Nat) (image : StripeImage) :
    List Column → Except Fault StripeImage × List Column
  | [] => (.ok image, [])
  | c :: rest =>
    match c.serialize i image with
    | (.error e, c) => (.error e, c :: rest)
    | (.ok image, c) =>
      let (result, rest) := serializeFrom (i + 1) image rest
      (result, c :: rest)

/-- The image of a column set, and the set that keeps the encoded streams. All columns need to have
as many rows as the first. -/
def serialize (s : ColumnSet) : Except Fault StripeImage × ColumnSet :=
  match s.columns.find? fun c => c.rows ≠ s.rows with
  | some c => (.error (.stripeRows c.rows s.rows), s)
  | none =>
    let (result, columns) := serializeFrom 0 {} s.columns
    (result, { columns })

end ColumnSet

end ColumnFile
