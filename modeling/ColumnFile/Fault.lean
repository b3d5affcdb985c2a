import ColumnFile.Datum.Basic
import ColumnFile.Schema.Encoding
import ColumnFile.Schema.Kind

/-! # Faults

Everything that can go wrong, by its cause. The wording of each cause is in `Fault.Message`.

* `FaultClass` — the four coarse classes that a caller tells apart.
* `Fault` — the causes.
* `Fault.cls` — the class of a cause.
* `Attempt` — what a call that changes a state returns.
* `Attempt.all` — attempts one after another.
-/

namespace ColumnFile

/-- The coarse **class** of a fault. -/
inductive FaultClass
  /-- A block compressor rejected its input. -/
  | compression
  /-- A column count or a type disagrees with the expected rows. -/
  | schema
  /-- A file or a message could not be read or written. -/
  | io
  /-- Anything else: a malformed stream, a misuse, a broken file. -/
  | logic
deriving DecidableEq, Repr, Inhabited

/-- The name of a class in a report. -/
def FaultClass.label : FaultClass → String
  | compression => "compression error"
  | schema => "schema mismatch"
  | io => "i/o error"
  | logic => "logic error"

/-- The **cause** of a failure. -/
inductive Fault
  -- Integers and their streams.
  | varintTruncated
  | varintTooLong
  | packedTruncated
  | runTruncated
  | patchTooWide
  | patchIndex
  | deltaRunShort
  | deltaCount
  | deltaBlockTruncated
  | deltaTrailing
  -- Dictionaries.
  | dictionaryHeap
  | dictionaryTable
  | dictionaryTableLength
  | dictionaryCode
  | dictionaryNegative
  | dictionaryEntry
  | dictionaryExpansion
  -- Buffers.
  | writePastCapacity
  | commitPastCapacity
  | consumePastCommitted
  | shrinkBelowCommitted
  -- Codecs.
  | unknownEncoding (label : String)
  | unknownFormat (label : String)
  | unresolvedEncoding (kind : Encoding)
  | dictionaryOnIntegers
  | notIntegerCodec
  | notByteCodec
  | integerCount (decoded expected : Nat)
  | unencodedLength
  /-- A block compressor failed; without `detail` the library gave its own reason. -/
  | compressor (name op : String) (detail : Option String)
  -- Columns.
  | badAlign (align : Nat) (column : String)
  | notFixedWidth (column : String)
  | fixedWidth (column : String)
  | nullBitmapLength
  | rowOutOfRange (row rows : Nat)
  | presentTooShort
  | toastTooShort
  | offsetsMissing (column : String)
  | slotBytes (column : String) (bytes slots width : Nat)
  | valueCount
  | valueWidth (bytes width : Nat)
  | shrinkingRows
  | rangePastValues
  | outOfLineUnsupported
  | toastRefLength (bytes : Nat)
  | offsetBytes (column : String) (bytes rows : Nat)
  | offsetsNotMonotonic (column : String) (index : Nat)
  | lastOffset (column : String)
  | toastBitmapLength
  | offsetsOverflow
  | offsetOutOfRange
  | datumLength (bytes : Nat) (kind : Kind)
  | datumKind (datum : Datum) (kind : Kind)
  -- Column sets and stripes.
  | noColumn (index count : Nat)
  | stripeRows (rows expected : Nat)
  | encodingCount (encodings columns : Nat)
  | streamBeyondSchema (column : Nat)
  | streamPastEnd
  | stripeDataLength (length stripe : Nat)
  | stripeLayout (stripe stop expected : Nat)
  -- Statistics.
  | rowWidth (values columns : Nat)
  | statisticsColumns
  -- Configuration.
  | noFileName
  | noColumns
  | zeroGroupLimit
  | choiceCount (encodings columns : Nat)
  | unknownStatisticsColumn (name : String)
  | zeroToastThreshold
  -- Files.
  | noSuchFile (path : String)
  | fileExists (path : String)
  | readPastEnd (bytes offset : Nat)
  /-- A library or the operating system failed; the text is its own. -/
  | external
  /-- A caller's own code failed, in its own words. -/
  | reported (cls : FaultClass) (text : String)
  -- Reading.
  | badMagic (magic : String)
  | badVersion (version : Nat)
  | shortTrailer
  | fileTooShort (path : String)
  | postscriptLength
  | footerLength
  | footerPlace
  | schemaDiffers (expected found : List String)
  | rowCounts
  | noGroup (index count : Nat)
  | readerClosed (path : String)
  | groupPastStripes (index : Nat)
  | toastFileMissing
  | nullToast
  | noRow (row rows : Nat)
  -- Writing.
  | writerClosed (path : String)
  | toastWithoutFile
  | noLogSink
  | noOpenFile
  | mergeRelations (source target : Nat)
  | mergeSelf
  | mergeSchemas
  | mergeToast
  | mergeSourceClosed
deriving DecidableEq

namespace Fault

/-- The class of a cause. -/
def cls : Fault → FaultClass
  | compressor .. => .compression
  | datumKind .. | noColumn .. | stripeRows .. | encodingCount .. | streamBeyondSchema .. => .schema
  | rowWidth .. | statisticsColumns | schemaDiffers .. | mergeSchemas => .schema
  | noSuchFile .. | fileExists .. | readPastEnd .. | external => .io
  | reported cls _ => cls
  | _ => .logic

end Fault

/-- An **attempt** to change a state: whether it succeeded, and the state that it leaves either
way. -/
abbrev Attempt (σ : Type) : Type := Except Fault Unit × σ

namespace Attempt

variable {σ α : Type}

/-- The attempt of a step that leaves the state as it was when it fails. -/
def ofStep (step : σ → Except Fault σ) (s : σ) : Attempt σ :=
  match step s with
  | .ok s => (.ok (), s)
  | .error e => (.error e, s)

/-- Attempts a step for each of some values, up to the first that fails. -/
def all (step : σ → α → Attempt σ) : List α → σ → Attempt σ
  | [], s => (.ok (), s)
  | a :: rest, s =>
    match step s a with
    | (.ok (), s) => all step rest s
    | (.error e, s) => (.error e, s)

end Attempt

end ColumnFile
