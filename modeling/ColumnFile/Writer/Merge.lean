import ColumnFile.Writer.Write

/-! # Merging writers

The stripes of one writer are copied behind those of another, octet by octet; only where they are is
written down anew. Then come the rows that the first has not written yet, and its files are deleted.

* `Writer.merge` — takes over another writer.
-/

namespace ColumnFile

namespace Writer

open Writing

/-- Refuses to merge writers of which one is closed, or whose rows do not belong together. -/
def checkMerge (w other : Writer) : Except Fault Unit := do
  w.checkOpen
  other.checkOpen
  if w.options.relId ≠ other.options.relId then
    throw (.mergeRelations other.options.relId w.options.relId)
  if Path.same w.options.fileName other.options.fileName then throw .mergeSelf
  if w.options.schema ≠ other.options.schema ∨ w.options.format ≠ other.options.format then
    throw .mergeSchemas

/-- Copies the out-of-line values of the stripes of another writer. -/
def copyToast (other : Writer) : Writing Unit := do
  if 0 < other.toastOffset then
    let w ← writer
    match other.toastFile, w.toastFile with
    | some theirs, some ours =>
      let bs ← lift ((← store).read theirs 0 other.toastOffset)
      setStore (·.write ours w.toastOffset bs)
      setWriter fun w => { w with toastOffset := w.toastOffset + bs.length }
    | _, _ => throw .mergeToast

/-- Copies a stripe of another writer, whose out-of-line values were copied to `toastBase`. -/
def copyStripe (other : Writer) (toastBase : Nat) (info : StripeInformation) : Writing Unit := do
  match other.file with
  | none => throw .mergeSourceClosed
  | some theirs =>
    let stripe ← lift ((← store).read theirs info.offset info.length)
    putData stripe
    setWriter fun w =>
      { w with
        stripes := w.stripes ++
          [{ info with offset := w.offset, toastOffset := toastBase + info.toastOffset }]
        offset := w.offset + stripe.length }

variable [Library]

/-- Writes the rows that another writer has not written yet as a stripe. -/
def takeRows (other : Writer) : Writing Unit := do
  if 0 < other.columns.rows then
    let _ ← lift (freshColumns other.options [])
    let _ ← putStripe other.columns other.stripeStatistics.finish

/-- The statistics for the summary of two writers. If only the other has its own, those of this file
are added to them. -/
def mergedSummary (w other : Writer) : Except Fault (Option Collector) :=
  match w.summaryStatistics, other.summaryStatistics with
  | some ours, some theirs => some <$> ours.merge theirs
  | none, some theirs => some <$> theirs.merge w.fileStatistics
  | ours, none => .ok ours

/-- Takes over the statistics of another writer, and counts its rows. -/
def takeStatistics (other : Writer) : Writing Unit := do
  let w ← writer
  let summaryStatistics ← lift (w.mergedSummary other)
  setWriter fun w => { w with summaryStatistics }
  let fileStatistics ← lift (w.fileStatistics.merge other.fileStatistics)
  setWriter fun w => { w with fileStatistics, tuples := w.tuples + other.tuples }

/-- Deletes the files of a writer. -/
def deleteFiles (other : Writer) : Writing Unit := do
  let rest ← lift ((← store).delete other.options.fileName)
  setStore fun _ => rest
  if rest.has other.options.toastFileName then
    let rest ← lift (rest.delete other.options.toastFileName)
    setStore fun _ => rest

/-- Takes over the rows of another writer, which follow the rows so far, and deletes its files. -/
def merge (other : Writer) : Writing Unit := do
  lift ((← writer).checkMerge other)
  flush
  let toastBase := (← writer).toastOffset
  copyToast other
  other.stripes.forM (copyStripe other toastBase)
  takeRows other
  takeStatistics other
  deleteFiles other

end Writer

end ColumnFile
