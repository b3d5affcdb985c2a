import ColumnFile.Column.Attributes
import ColumnFile.MessagePack.Shape
import ColumnFile.Schema.Encoding
import ColumnFile.Schema.Kind

/-! # Schemas as messages

* `Kind.shape`, `StorageFormat.shape`, `Encoding.shape` — names.
* `ColumnSpec.shape`, `EncodingChoice.shape`, `ColumnEncoding.shape`, `Attributes.shape` — records.
-/

namespace ColumnFile

open MessagePack (Shape Shaped)

/-- Kinds are written by name. -/
def Kind.shape : Shape Kind := .choice Kind.all Kind.name

/-- A kind is written in its shape. -/
instance : Shaped Kind := ⟨Kind.shape⟩

/-- Storage formats are written by name. -/
def StorageFormat.shape : Shape StorageFormat := .choice [.padded, .dense] StorageFormat.name

/-- A format is written in its shape. -/
instance : Shaped StorageFormat := ⟨StorageFormat.shape⟩

/-- Encodings are written by name. -/
def Encoding.shape : Shape Encoding := .choice Encoding.all Encoding.name

/-- An encoding is written in its shape. -/
instance : Shaped Encoding := ⟨Encoding.shape⟩

/-- The record of a column. -/
def ColumnSpec.shape : Shape ColumnSpec :=
  .record ["name", "kind", "align"]
    (fun c => [Shape.text.write c.name, Kind.shape.write c.kind, (Shape.nat 64).write c.align])
    fun f => do
      return {
        name := ← f.get "name" .text
        kind := ← f.get "kind" Kind.shape
        align := ← f.get "align" (.nat 64) }

/-- A column of a schema is written in its shape. -/
instance : Shaped ColumnSpec := ⟨ColumnSpec.shape⟩

/-- The record of an encoding choice. -/
def EncodingChoice.shape : Shape EncodingChoice :=
  .record ["kind", "level"]
    (fun c => [Encoding.shape.write c.kind, Shape.int32.write c.level])
    fun f => do
      return { kind := ← f.get "kind" Encoding.shape, level := ← f.get "level" .int32 }

/-- A choice of an encoding is written in its shape. -/
instance : Shaped EncodingChoice := ⟨EncodingChoice.shape⟩

/-- The record of the encodings of a column. -/
def ColumnEncoding.shape : Shape ColumnEncoding :=
  .record
    ["kind", "compress_level", "length", "offset_stream_kind", "offset_stream_compress_level",
      "offset_stream_length"]
    (fun c =>
      [Encoding.shape.write c.data.kind, Shape.int32.write c.data.level,
        (Shape.nat 64).write c.length, Encoding.shape.write c.offsets.kind,
        Shape.int32.write c.offsets.level, (Shape.nat 64).write c.offsetsLength])
    fun f => do
      let data : EncodingChoice :=
        { kind := ← f.get "kind" Encoding.shape
          level := ← f.get "compress_level" .int32 }
      let offsets : EncodingChoice :=
        { kind := ← f.get "offset_stream_kind" Encoding.shape
          level := ← f.get "offset_stream_compress_level" .int32 }
      return {
        data
        length := ← f.get "length" (.nat 64)
        offsets
        offsetsLength := ← f.get "offset_stream_length" (.nat 64) }

/-- The encoding that a column records is written in its shape. -/
instance : Shaped ColumnEncoding := ⟨ColumnEncoding.shape⟩

/-- Attributes are written as a map. -/
def Attributes.shape : Shape Attributes :=
  .dictionary .text [] Attributes.put id

/-- Attributes are written in their shape. -/
instance : Shaped Attributes := ⟨Attributes.shape⟩

end ColumnFile
