import ColumnFile.Footer
import ColumnFile.Message.Stripe

/-! # The end of a file as messages

* `FileFooter.shape` — the footer.
* `PostScript.shape` — the postscript.
-/

namespace ColumnFile

open MessagePack (Shape Shaped)

/-- The record of the footer of a file. -/
def FileFooter.shape : Shape FileFooter :=
  .record
    ["content_length", "number_of_rows", "storage_format", "schema", "column_attributes", "stripes",
      "column_stats"]
    (fun s =>
      [(Shape.nat 64).write s.contentLength, (Shape.nat 64).write s.rows,
        StorageFormat.shape.write s.format, (Shape.list ColumnSpec.shape).write s.schema,
        (Shape.list Attributes.shape).write s.attributes,
        (Shape.list StripeInformation.shape).write s.stripes,
        (Shape.list ColumnStatistics.shape).write s.statistics])
    fun f => do
      return {
        contentLength := ← f.get "content_length" (.nat 64)
        rows := ← f.get "number_of_rows" (.nat 64)
        format := ← f.get "storage_format" StorageFormat.shape
        schema := ← f.get "schema" (.list ColumnSpec.shape)
        attributes := ← f.get "column_attributes" (.list Attributes.shape)
        stripes := ← f.get "stripes" (.list StripeInformation.shape)
        statistics := ← f.get "column_stats" (.list ColumnStatistics.shape) }

/-- A footer is written in its shape. -/
instance : Shaped FileFooter := ⟨FileFooter.shape⟩

/-- The record of a postscript. -/
def PostScript.shape : Shape PostScript :=
  .record ["magic", "version", "writer", "footer_length"]
    (fun p =>
      [Shape.text.write p.magic, (Shape.nat 32).write p.version, Shape.text.write p.writer,
        (Shape.nat 64).write p.footerLength])
    fun f => do
      return {
        magic := ← f.get "magic" .text
        version := ← f.get "version" (.nat 32)
        writer := ← f.get "writer" .text
        footerLength := ← f.get "footer_length" (.nat 64) }

/-- The end of a file is written in its shape. -/
instance : Shaped PostScript := ⟨PostScript.shape⟩

end ColumnFile
