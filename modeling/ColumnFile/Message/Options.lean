import ColumnFile.Message.Schema
import ColumnFile.Options.Writer

/-! # Options as messages

* `WriterOptions.shape` — the options of a writer; each has a default.
-/

namespace ColumnFile

open MessagePack (Shape Shaped)

/-- The record of the options of a writer. -/
def WriterOptions.shape : Shape WriterOptions :=
  .record
    ["file_name", "block_id", "rel_id", "schema", "encodings", "offsets_encoding",
      "min_max_columns", "bloom_filter_columns", "group_limit", "storage_format", "wal",
      "toast_threshold"]
    (fun o =>
      [Shape.text.write o.fileName, (Shape.nat 64).write o.blockId, (Shape.nat 64).write o.relId,
        (Shape.list ColumnSpec.shape).write o.schema,
        (Shape.list EncodingChoice.shape).write o.encodings,
        EncodingChoice.shape.write o.offsetsEncoding, (Shape.list .text).write o.rangeColumns,
        (Shape.list .text).write o.bloomColumns, (Shape.nat 64).write o.groupLimit,
        StorageFormat.shape.write o.format, Shape.bool.write o.log,
        (Shape.option (.nat 64)).write o.toastThreshold])
    fun f => do
      let defaults : WriterOptions := {}
      return {
        fileName := ← f.get "file_name" (Shape.text.withDefault defaults.fileName)
        blockId := ← f.get "block_id" ((Shape.nat 64).withDefault defaults.blockId)
        relId := ← f.get "rel_id" ((Shape.nat 64).withDefault defaults.relId)
        schema := ← f.get "schema" ((Shape.list ColumnSpec.shape).withDefault defaults.schema)
        encodings := ← f.get "encodings"
          ((Shape.list EncodingChoice.shape).withDefault defaults.encodings)
        offsetsEncoding := ← f.get "offsets_encoding"
          (EncodingChoice.shape.withDefault defaults.offsetsEncoding)
        rangeColumns := ← f.get "min_max_columns"
          ((Shape.list .text).withDefault defaults.rangeColumns)
        bloomColumns := ← f.get "bloom_filter_columns"
          ((Shape.list .text).withDefault defaults.bloomColumns)
        groupLimit := ← f.get "group_limit" ((Shape.nat 64).withDefault defaults.groupLimit)
        format := ← f.get "storage_format" (StorageFormat.shape.withDefault defaults.format)
        log := ← f.get "wal" (Shape.bool.withDefault defaults.log)
        toastThreshold := ← f.get "toast_threshold"
          ((Shape.option (.nat 64)).withDefault defaults.toastThreshold) }

/-- Options are written in their shape. -/
instance : Shaped WriterOptions := ⟨WriterOptions.shape⟩

end ColumnFile
