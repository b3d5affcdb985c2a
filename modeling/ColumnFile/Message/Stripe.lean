import ColumnFile.Message.Schema
import ColumnFile.Message.Statistics
import ColumnFile.Stripe.Information
import ColumnFile.Stripe.Stream

/-! # Stripes as messages

* `StreamEntry.shape`, `StripeFooter.shape` — the footer of a stripe.
* `StripeInformation.shape` — an entry of the directory of a file.
-/

namespace ColumnFile

open MessagePack (Shape Shaped)

/-- Kinds of streams are written by name. -/
def StreamKind.shape : Shape StreamKind := .choice StreamKind.all StreamKind.name

/-- The record of a stream. -/
def StreamEntry.shape : Shape StreamEntry :=
  .record ["kind", "column", "length", "padding"]
    (fun s =>
      [StreamKind.shape.write s.kind, (Shape.nat 32).write s.column,
        (Shape.nat 64).write s.length, (Shape.nat 32).write s.padding])
    fun f => do
      return {
        kind := ← f.get "kind" StreamKind.shape
        column := ← f.get "column" (.nat 32)
        length := ← f.get "length" (.nat 64)
        padding := ← f.get "padding" (.nat 32) }

/-- An entry of a directory of streams is written in its shape. -/
instance : Shaped StreamEntry := ⟨StreamEntry.shape⟩

/-- The record of the footer of a stripe. -/
def StripeFooter.shape : Shape StripeFooter :=
  .record ["streams", "encodings"]
    (fun s =>
      [(Shape.list StreamEntry.shape).write s.streams,
        (Shape.list ColumnEncoding.shape).write s.encodings])
    fun f => do
      return {
        streams := ← f.get "streams" (.list StreamEntry.shape)
        encodings := ← f.get "encodings" (.list ColumnEncoding.shape) }

/-- The footer of a stripe is written in its shape. -/
instance : Shaped StripeFooter := ⟨StripeFooter.shape⟩

/-- The record of an entry of the directory of a file. -/
def StripeInformation.shape : Shape StripeInformation :=
  .record
    ["offset", "data_length", "footer_length", "number_of_rows", "toast_offset", "toast_length",
      "number_of_toast", "ext_toast_length", "column_stats"]
    (fun s =>
      [(Shape.nat 64).write s.offset, (Shape.nat 64).write s.dataLength,
        (Shape.nat 64).write s.footerLength, (Shape.nat 64).write s.rows,
        (Shape.nat 64).write s.toastOffset, (Shape.nat 64).write s.toastLength,
        (Shape.nat 64).write s.toastCount, (Shape.list (.nat 64)).write s.toastLengths,
        (Shape.list ColumnStatistics.shape).write s.statistics])
    fun f => do
      return {
        offset := ← f.get "offset" (.nat 64)
        dataLength := ← f.get "data_length" (.nat 64)
        footerLength := ← f.get "footer_length" (.nat 64)
        rows := ← f.get "number_of_rows" (.nat 64)
        toastOffset := ← f.get "toast_offset" (.nat 64)
        toastLength := ← f.get "toast_length" (.nat 64)
        toastCount := ← f.get "number_of_toast" (.nat 64)
        toastLengths := ← f.get "ext_toast_length" (.list (.nat 64))
        statistics := ← f.get "column_stats" (.list ColumnStatistics.shape) }

/-- An entry of a directory of stripes is written in its shape. -/
instance : Shaped StripeInformation := ⟨StripeInformation.shape⟩

end ColumnFile
