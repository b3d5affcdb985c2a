import ColumnFile.Options.Writer
import ColumnFile.Statistics.Collector
import ColumnFile.Store.Basic
import ColumnFile.Stripe.Information
import ColumnFile.Stripe.Serialize

/-! # Writers

A writer takes rows, keeps them in columns, and writes a stripe whenever there are enough. What it
leaves in the world outside — files, logged stripes, summaries — is the archive.

* `Library` — what files are written with.
* `Archive` — the files, the log and the summaries.
* `LogSink` — who decides which stripes are logged.
* `Writer` — the writer.
* `Writing` — a step of a writer in its archive.
* `Writer.create` — a writer of a new file.
-/

namespace ColumnFile

/-- A **library** of what files are written with: block compressors and filters. -/
class Library extends BlockLibrary, BloomScheme

/-! ## The archive -/

/-- A stripe that was **logged** before it was written. -/
structure LogRecord where
  /-- The file that the stripe goes to. -/
  fileName : String
  /-- Where in the file. -/
  offset : Nat
  /-- The stripe. -/
  stripe : Bytes
deriving DecidableEq, Repr, Inhabited

/-- The **summary** of a closed file. -/
structure WriteSummary where
  /-- The file. -/
  fileName : String
  /-- The number that the options give for it. -/
  blockId : Nat
  /-- The relation of its rows. -/
  relId : Nat
  /-- How long it is. -/
  fileSize : Nat
  /-- How many rows it has. -/
  tuples : Nat
  /-- Whether there are out-of-line values beside it. -/
  hasToast : Bool
  /-- The statistics of its columns. -/
  statistics : List ColumnStatistics
deriving DecidableEq, Repr, Inhabited

/-- An **archive**: what writers leave behind. -/
structure Archive where
  /-- The files. -/
  store : Store := {}
  /-- The stripes that were logged, the first one first. -/
  log : List LogRecord := []
  /-- The summaries of the files that were closed, the first one first. -/
  summaries : List WriteSummary := []
deriving DecidableEq, Repr, Inhabited

/-- A **sink** for the log: it accepts or refuses the stripes that it is given. -/
structure LogSink where
  /-- The fault with which the call of a number is refused, if it is. -/
  refusal : Nat → Option Fault
  /-- How many calls there were. -/
  calls : Nat := 0

/-! ## The writer -/

/-- A **writer**. -/
structure Writer where
  /-- The options. -/
  options : WriterOptions
  /-- The file, as long as it can be written. -/
  file : Option FileId
  /-- The file of out-of-line values, if there is one. -/
  toastFile : Option FileId
  /-- The rows that are not written yet. -/
  columns : ColumnSet
  /-- Where the next stripe begins. -/
  offset : Nat := 0
  /-- Where its out-of-line values begin. -/
  toastOffset : Nat := 0
  /-- The stripes that were written. -/
  stripes : List StripeInformation := []
  /-- The statistics of the rows that are not written yet. -/
  stripeStatistics : Collector
  /-- The statistics of the file. -/
  fileStatistics : Collector
  /-- The statistics for the summary, if they are not those of the file. -/
  summaryStatistics : Option Collector := none
  /-- How many rows there are. -/
  tuples : Nat := 0
  /-- The sink of the log, if there is one. -/
  sink : Option LogSink := none
  /-- Whether the file is complete. -/
  closed : Bool := false

namespace Writer

/-- How many rows are not written yet. -/
def buffered (w : Writer) : Nat := w.columns.rows

/-- How many octets were written, and the rows take in memory. -/
def size (w : Writer) : Nat := w.offset + w.columns.size

/-- Empty columns for some options. -/
def freshColumns (options : WriterOptions) (attributes : List Attributes) :
    Except Fault ColumnSet :=
  ColumnSet.new options.schema options.format options.choice options.offsetsEncoding attributes

/-- A collector without rows for some options. -/
def freshStatistics (options : WriterOptions) : Collector :=
  Collector.new options.schema options.rangeColumns options.bloomColumns

/-- Creates the file of out-of-line values that some options ask for. -/
def createToast (options : WriterOptions) (store : Store) :
    Except Fault (Option FileId × Store) :=
  match options.toastThreshold with
  | none => .ok (none, store)
  | some _ => (store.create options.toastFileName).map fun (file, store) => (some file, store)

/-- Creates the files of a writer, and the writer. A failure leaves the files that were created. -/
def create (options : WriterOptions) (store : Store) : Except Fault Writer × Store :=
  match options.validate, store.create options.fileName with
  | .error e, _ => (.error e, store)
  | .ok (), .error e => (.error e, store)
  | .ok (), .ok (file, store) =>
    match createToast options store, freshColumns options [] with
    | .error e, _ => (.error e, store)
    | .ok (_, store), .error e => (.error e, store)
    | .ok (toastFile, store), .ok columns =>
      (.ok {
        options
        file := some file
        toastFile
        columns
        stripeStatistics := freshStatistics options
        fileStatistics := freshStatistics options }, store)

end Writer

/-! ## Steps -/

/-- A writer **at work**: the writer and its archive. -/
structure Workspace where
  /-- The writer. -/
  writer : Writer
  /-- The archive. -/
  archive : Archive

/-- A **step** of a writer: it may fail, and leaves a writer and an archive in any case. -/
abbrev Writing (α : Type) : Type := ExceptT Fault (StateM Workspace) α

namespace Writing

/-- Does the step at work; the outcome and what it leaves. -/
def runAt {α : Type} (step : Writing α) (w : Workspace) : Except Fault α × Workspace :=
  StateT.run (ExceptT.run step) w

/-- The writer. -/
def writer : Writing Writer := do return (← get).writer

/-- The files. -/
def store : Writing Store := do return (← get).archive.store

/-- Changes the writer. -/
def setWriter (change : Writer → Writer) : Writing Unit :=
  modify fun w => { w with writer := change w.writer }

/-- Changes the archive. -/
def setArchive (change : Archive → Archive) : Writing Unit :=
  modify fun w => { w with archive := change w.archive }

/-- Changes the files. -/
def setStore (change : Store → Store) : Writing Unit :=
  setArchive fun a => { a with store := change a.store }

/-- Fails, or goes on with a result. -/
def lift {α : Type} : Except Fault α → Writing α
  | .ok a => pure a
  | .error e => throw e

end Writing

end ColumnFile
