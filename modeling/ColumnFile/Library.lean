import ColumnFile.Block.Lz4
import ColumnFile.Block.Zlib
import ColumnFile.Block.Zstd
import ColumnFile.Statistics.Digest
import ColumnFile.Writer.Basic

/-! # What this build works with

* `BlockLibrary.standard` — Zstandard, zlib and LZ4.
* `Library.standard` — these compressors, and filters of the usual sizes.
-/

namespace ColumnFile

/-- The compressors of this build. -/
instance (priority := low) BlockLibrary.standard : BlockLibrary where
  compressor
    | .zstd => Zstd.compressor
    | .zlib => Zlib.compressor
    | .lz4 => Lz4.compressor

/-- The compressors and filters of this build. -/
instance (priority := low) Library.standard : Library where
  toBlockLibrary := .standard
  toBloomScheme := .standard

end ColumnFile
