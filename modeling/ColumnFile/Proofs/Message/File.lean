import ColumnFile.Message.Basic
import ColumnFile.Message.Footer
import ColumnFile.Proofs.Message.Schema
import ColumnFile.Proofs.Message.Statistics

/-! # The messages of a file read back

* **`StripeFooter.fits`**, **`FileFooter.fits`**, **`PostScript.fits`** — the messages that a file
  has.
* **`Message.decode_encode`** — a message that fits reads back from its octets. -/

namespace ColumnFile

open MessagePack (Fields Shape Shaped Value)

/-! ## (1) Stripes -/

/-- The kind of a stream fits into its message. -/
theorem StreamKind.fits (k : StreamKind) : StreamKind.shape.Fits 0 k := by
  refine Shape.choice_fits ?_ ?_ ?_
  · cases k <;> decide
  · cases k <;> decide
  · cases k <;> decide

/-- **An entry of a stream** within the bounds of a message. -/
structure StreamEntry.Sized (e : StreamEntry) : Prop where
  column : e.column < 2 ^ 32
  length : e.length < 2 ^ 64
  padding : e.padding < 2 ^ 32

/-- **An entry of a stream** reads back. -/
theorem StreamEntry.fits {e : StreamEntry} (h : e.Sized) : StreamEntry.shape.Fits 1 e := by
  have hkind := StreamKind.fits e.kind
  have hcolumn := Shape.nat_fits (by decide) h.column
  have hlength := Shape.nat_fits (by decide) h.length
  have hpadding := Shape.nat_fits (by decide) h.padding
  refine Shape.record_fits (by decide) (by decide) (by decide) rfl ?_ ?_
  · simp [hkind.sized, hcolumn.sized, hlength.sized, hpadding.sized]
  · intro levels hlevels
    simp [Fields.get, List.lookup_cons, hkind.reads levels hlevels, hcolumn.reads levels hlevels,
      hlength.reads levels hlevels, hpadding.reads levels hlevels]

/-- **The footer of a stripe** within the bounds of a message. -/
structure StripeFooter.Sized (f : StripeFooter) : Prop where
  count : f.streams.length < 2 ^ 32
  streams : ∀ e ∈ f.streams, e.Sized
  columns : f.encodings.length < 2 ^ 32
  encodings : ∀ e ∈ f.encodings, e.Sized

/-- **The footer of a stripe** reads back. -/
theorem StripeFooter.fits {f : StripeFooter} (h : f.Sized) : StripeFooter.shape.Fits 3 f := by
  have hstreams := Shape.list_fits h.count fun e he => StreamEntry.fits (h.streams e he)
  have hencodings := Shape.list_fits h.columns fun e he => ColumnEncoding.fits (h.encodings e he)
  refine Shape.record_fits (by decide) (by decide) (by decide) rfl ?_ ?_
  · simp [hstreams.sized, hencodings.sized]
  · intro levels hlevels
    simp [Fields.get, List.lookup_cons, hstreams.reads levels hlevels,
      hencodings.reads levels hlevels]

/-- **An entry of the directory** within the bounds of a message. -/
structure StripeInformation.Sized (s : StripeInformation) : Prop where
  offset : s.offset < 2 ^ 64
  dataLength : s.dataLength < 2 ^ 64
  footerLength : s.footerLength < 2 ^ 64
  rows : s.rows < 2 ^ 64
  toastOffset : s.toastOffset < 2 ^ 64
  toastLength : s.toastLength < 2 ^ 64
  toastCount : s.toastCount < 2 ^ 64
  toastColumns : s.toastLengths.length < 2 ^ 32
  toastLengths : ∀ n ∈ s.toastLengths, n < 2 ^ 64
  columns : s.statistics.length < 2 ^ 32
  statistics : ∀ c ∈ s.statistics, c.Sized

/-- **An entry of the directory** reads back. -/
theorem StripeInformation.fits {s : StripeInformation} (h : s.Sized) :
    StripeInformation.shape.Fits 6 s := by
  have hnat : ∀ {n : Nat}, n < 2 ^ 64 → (Shape.nat 64).Fits 5 n := fun hn =>
    (Shape.nat_fits (by decide) hn).mono (Nat.zero_le 5)
  have hoffset := hnat h.offset
  have hdata := hnat h.dataLength
  have hfooter := hnat h.footerLength
  have hrows := hnat h.rows
  have htoastOffset := hnat h.toastOffset
  have htoastLength := hnat h.toastLength
  have htoastCount := hnat h.toastCount
  have htoastLengths := (Shape.list_fits h.toastColumns fun n hn =>
    Shape.nat_fits (by decide) (h.toastLengths n hn)).mono (by decide : 1 ≤ 5)
  have hstatistics := Shape.list_fits h.columns fun c hc =>
    ColumnStatistics.fits (h.statistics c hc)
  refine Shape.record_fits (by decide) (by decide) (by decide) rfl ?_ ?_
  · simp [hoffset.sized, hdata.sized, hfooter.sized, hrows.sized, htoastOffset.sized,
      htoastLength.sized, htoastCount.sized, htoastLengths.sized, hstatistics.sized]
  · intro levels hlevels
    simp [Fields.get, List.lookup_cons, hoffset.reads levels hlevels, hdata.reads levels hlevels,
      hfooter.reads levels hlevels, hrows.reads levels hlevels, htoastOffset.reads levels hlevels,
      htoastLength.reads levels hlevels, htoastCount.reads levels hlevels,
      htoastLengths.reads levels hlevels, hstatistics.reads levels hlevels]

/-! ## (2) The end of a file -/

/-- **The footer of a file** within the bounds of a message. -/
structure FileFooter.Sized (f : FileFooter) : Prop where
  contentLength : f.contentLength < 2 ^ 64
  rows : f.rows < 2 ^ 64
  columns : f.schema.length < 2 ^ 32
  schema : ∀ c ∈ f.schema, c.Sized
  attributesCount : f.attributes.length < 2 ^ 32
  attributes : ∀ a ∈ f.attributes, a.Sized
  stripesCount : f.stripes.length < 2 ^ 32
  stripes : ∀ s ∈ f.stripes, s.Sized
  statisticsCount : f.statistics.length < 2 ^ 32
  statistics : ∀ c ∈ f.statistics, c.Sized

/-- **The footer of a file** reads back. -/
theorem FileFooter.fits {f : FileFooter} (h : f.Sized) : FileFooter.shape.Fits 8 f := by
  have hcontent := (Shape.nat_fits (by decide) h.contentLength).mono (Nat.zero_le 7)
  have hrows := (Shape.nat_fits (by decide) h.rows).mono (Nat.zero_le 7)
  have hformat := (StorageFormat.fits f.format).mono (Nat.zero_le 7)
  have hschema := (Shape.list_fits h.columns fun c hc => ColumnSpec.fits (h.schema c hc)).mono
    (by decide : 2 ≤ 7)
  have hattributes := (Shape.list_fits h.attributesCount fun a ha =>
    Attributes.fits (h.attributes a ha)).mono (by decide : 2 ≤ 7)
  have hstripes := Shape.list_fits h.stripesCount fun s hs =>
    StripeInformation.fits (h.stripes s hs)
  have hstatistics := (Shape.list_fits h.statisticsCount fun c hc =>
    ColumnStatistics.fits (h.statistics c hc)).mono (by decide : 5 ≤ 7)
  refine Shape.record_fits (by decide) (by decide) (by decide) rfl ?_ ?_
  · simp [hcontent.sized, hrows.sized, hformat.sized, hschema.sized, hattributes.sized,
      hstripes.sized, hstatistics.sized]
  · intro levels hlevels
    simp [Fields.get, List.lookup_cons, hcontent.reads levels hlevels, hrows.reads levels hlevels,
      hformat.reads levels hlevels, hschema.reads levels hlevels, hattributes.reads levels hlevels,
      hstripes.reads levels hlevels, hstatistics.reads levels hlevels]

/-- **The postscript** behind a footer reads back. -/
theorem PostScript.fits {footerLength : Nat} (h : footerLength < 2 ^ 64) :
    PostScript.shape.Fits 1 (PostScript.new footerLength) := by
  have hmagic : Shape.text.Fits 0 (PostScript.new footerLength).magic :=
    Shape.text_fits (s := PostScript.formatMagic) (by decide)
  have hversion : (Shape.nat 32).Fits 0 (PostScript.new footerLength).version :=
    Shape.nat_fits (n := PostScript.formatVersion) (by decide) (by decide)
  have hwriter : Shape.text.Fits 0 (PostScript.new footerLength).writer :=
    Shape.text_fits (s := PostScript.writerName) (by decide)
  have hlength : (Shape.nat 64).Fits 0 (PostScript.new footerLength).footerLength :=
    Shape.nat_fits (by decide) h
  refine Shape.record_fits (by decide) (by decide) (by decide) rfl ?_ ?_
  · simp [hmagic.sized, hversion.sized, hwriter.sized, hlength.sized]
  · intro levels hlevels
    simp [Fields.get, List.lookup_cons, hmagic.reads levels hlevels, hversion.reads levels hlevels,
      hwriter.reads levels hlevels, hlength.reads levels hlevels]

/-- **The length of a postscript** reads back from the trailer. -/
theorem Trailer.decode_encode {n : Nat} (h : n < 2 ^ 64) : decode (encode n) = .ok n := by
  have hlt : n < 256 ^ size := h
  rw [decode, if_neg (by simp), encode, Bytes.toNatLE_ofNatLE, Nat.mod_eq_of_lt hlt]

/-! ## (3) Messages -/

/-- **A message that fits reads back** from its octets. -/
theorem Message.decode_encode {α : Type} [Shaped α] {a : α} {depth : Nat}
    (h : (Shaped.shape : Shape α).Fits depth a) (hdepth : depth ≤ Message.maxLevels) :
    Message.decode α (Message.encode a) = .ok a := by
  have hvalue := Value.decode?_encode (h.sized.mono (Nat.le_succ_of_le hdepth))
  have hread : Message.ofValue? α ((Shaped.shape : Shape α).write a) = some a := h.reads _ hdepth
  rw [Message.decode, Message.encode, hvalue, Option.bind_eq_bind, Option.bind_some, hread]

end ColumnFile
