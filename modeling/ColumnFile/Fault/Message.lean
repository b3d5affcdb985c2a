import ColumnFile.Datum.Text
import ColumnFile.Fault

/-! # The wording of faults

* `Fault.message` — the text of a cause.
* `Fault.detail?` — the text that a caller may rely on; causes outside this library have none.
* `Fault.report` — the class and the text, as written to a log.
-/

namespace ColumnFile

namespace Fault

/-- The text of a cause. -/
def message : Fault → String
  | varintTruncated => "varint runs past end of stream"
  | varintTooLong => "varint too long"
  | packedTruncated => "bit-packed run past end of stream"
  | runTruncated => "rle run past end of stream"
  | patchTooWide => "rle patch entry wider than 64 bits"
  | patchIndex => "rle patch index out of range"
  | deltaRunShort => "rle delta run shorter than 2"
  | deltaCount => "delta stream count exceeds its length"
  | deltaBlockTruncated => "delta block past end of stream"
  | deltaTrailing => "trailing bytes after delta stream"
  | dictionaryHeap => "dictionary heap past end of stream"
  | dictionaryTable => "dictionary table past end of stream"
  | dictionaryTableLength => "dictionary table length mismatch"
  | dictionaryCode => "dictionary code out of range"
  | dictionaryNegative => "negative dictionary entry"
  | dictionaryEntry => "dictionary entry past end of heap"
  | dictionaryExpansion => "dictionary expansion disagrees with origin length"
  | writePastCapacity => "data buffer write past capacity"
  | commitPastCapacity => "data buffer brush past capacity"
  | consumePastCommitted => "data buffer treated cursor past used"
  | shrinkBelowCommitted => "data buffer resize below used"
  | unknownEncoding label => s!"unknown column encoding: {label}"
  | unknownFormat label => s!"unknown storage format: {label}"
  | unresolvedEncoding kind => s!"stream recorded with unresolved encoding {kind.label}"
  | dictionaryOnIntegers => "dictionary encoding applied to an integer stream"
  | notIntegerCodec => "not an integer codec"
  | notByteCodec => "not a byte codec"
  | integerCount decoded expected => s!"decoded {decoded} integers, expected {expected}"
  | unencodedLength => "unencoded stream length disagrees with origin length"
  | compressor name op none => s!"{name} {op} failed"
  | compressor name op (some detail) => s!"{name} {op} failed: {detail}"
  | badAlign align column => s!"unsupported alignment {align} for column {column}"
  | notFixedWidth column => s!"column {column} is not fixed-width"
  | fixedWidth column => s!"column {column} is fixed-width"
  | nullBitmapLength => "null bitmap length disagrees with row count"
  | rowOutOfRange row rows => s!"row {row} out of range for {rows} rows"
  | presentTooShort => "present stream shorter than row count"
  | toastTooShort => "toast stream shorter than row count"
  | offsetsMissing column => s!"non-fixed column {column} has no offsets stream"
  | slotBytes column bytes slots width =>
    s!"column {column}: {bytes} data bytes for {slots} slots of width {width}"
  | valueCount => "decoded value count disagrees with non-null rows"
  | valueWidth bytes width => s!"{bytes}-byte value for a {width}-byte column"
  | shrinkingRows => "cannot shrink a column's row count"
  | rangePastValues => "range past the column's non-null values"
  | outOfLineUnsupported => "column does not store out-of-line values"
  | toastRefLength bytes => s!"toast reference of {bytes} bytes"
  | offsetBytes column bytes rows => s!"column {column}: {bytes} offset bytes for {rows} rows"
  | offsetsNotMonotonic column index => s!"column {column}: offsets not monotonic at {index}"
  | lastOffset column => s!"column {column}: last offset disagrees with data length"
  | toastBitmapLength => "toast bitmap length disagrees with row count"
  | offsetsOverflow => "non-fixed column data exceeds u32 offsets"
  | offsetOutOfRange => "offset out of u32 range"
  | datumLength bytes kind => s!"{bytes} bytes for a {kind.name} value"
  | datumKind datum kind => s!"datum {datum.text} does not fit column type {kind.name}"
  | noColumn index count => s!"no column {index} among {count}"
  | stripeRows rows expected => s!"column of {rows} rows in a stripe of {expected}"
  | encodingCount encodings columns =>
    s!"stripe has {encodings} column encodings for {columns} columns"
  | streamBeyondSchema column => s!"stream for column {column} beyond schema"
  | streamPastEnd => "stream past end of stripe data"
  | stripeDataLength length stripe =>
    s!"stripe data length {length} exceeds the {stripe}-byte stripe"
  | stripeLayout stripe stop expected =>
    s!"stripe {stripe} streams end at {stop}, data ends at {expected}"
  | rowWidth values columns => s!"row of {values} values for {columns} columns"
  | statisticsColumns => "merging statistics of different column counts"
  | noFileName => "writer needs a file name"
  | noColumns => "writer needs at least one column"
  | zeroGroupLimit => "group limit must be positive"
  | choiceCount encodings columns => s!"{encodings} encodings for {columns} columns"
  | unknownStatisticsColumn name => s!"statistics requested for unknown column {name}"
  | zeroToastThreshold => "toast threshold must be positive"
  | noSuchFile path => s!"no such file: {path}"
  | fileExists path => s!"file exists: {path}"
  | readPastEnd bytes offset => s!"read of {bytes} bytes at {offset} past end of file"
  | external => ""
  | reported _ text => text
  | badMagic magic => s!"bad postscript magic {Text.quote magic}"
  | badVersion version => s!"unsupported format version {version}"
  | shortTrailer => "short file trailer"
  | fileTooShort path => s!"{path} is too short to be a micro-partition"
  | postscriptLength => "postscript length exceeds file"
  | footerLength => "footer length exceeds file"
  | footerPlace => "footer does not follow the stripes"
  | schemaDiffers expected found =>
    let names (columns : List String) := Text.brackets (columns.map Text.quote)
    s!"expected {expected.length} columns {names expected}, file has {names found}"
  | rowCounts => "stripe row counts disagree with the file's"
  | noGroup index count => s!"group {index} out of {count}"
  | readerClosed path => s!"reader for {path} is closed"
  | groupPastStripes index => s!"group {index} extends past the stripe section"
  | toastFileMissing => "group has out-of-line values but the toast file is missing"
  | nullToast => "null row marked as out-of-line"
  | noRow row rows => s!"row {row} out of {rows}"
  | writerClosed path => s!"writer for {path} is closed"
  | toastWithoutFile => "out-of-line values without a toast file"
  | noLogSink => "writer has WAL enabled but no sink"
  | noOpenFile => "writer has no open file"
  | mergeRelations source target => s!"cannot merge relation {source} into relation {target}"
  | mergeSelf => "cannot merge a writer into itself"
  | mergeSchemas => "cannot merge writers of different schemas"
  | mergeToast => "merging out-of-line values into a writer without a toast file"
  | mergeSourceClosed => "merge source has no open file"

/-- The text of a cause inside this library; what fails outside has words of its own. -/
def detail? : Fault → Option String
  | external => none
  | f => some f.message

/-- The class and the text of a fault, as written to a log. -/
def report (f : Fault) : String := s!"{f.cls.label}: Initial error: {f.message}"

end Fault

end ColumnFile
