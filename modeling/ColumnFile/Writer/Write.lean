import ColumnFile.Message.Basic
import ColumnFile.Message.Stripe
import ColumnFile.Writer.Basic

/-! # Writing rows and stripes

* `Writer.write` — one more row.
* `Writer.flush` — the rows so far as a stripe.
* `Writer.putStripe` — a stripe of some columns.
-/

namespace ColumnFile

namespace Writer

open Writing

/-- Refuses a writer whose file is complete. -/
def checkOpen (w : Writer) : Except Fault Unit :=
  if w.closed then .error (.writerClosed w.options.fileName) else .ok ()

/-! ## Stripes -/

/-- Has the next stripe logged, where the options ask for it. -/
def logStripe (stripe : Bytes) : Writing Unit := do
  let w ← writer
  if w.options.log then
    match w.sink with
    | none => throw .noLogSink
    | some sink =>
      setWriter fun w => { w with sink := some { sink with calls := sink.calls + 1 } }
      match sink.refusal sink.calls with
      | some e => throw e
      | none =>
        setArchive fun a =>
          { a with log := a.log ++
              [{ fileName := w.options.fileName, offset := w.offset, stripe }] }

/-- Writes the octets of a stripe behind the stripes so far. -/
def putData (stripe : Bytes) : Writing Unit := do
  logStripe stripe
  let w ← writer
  match w.file with
  | none => throw .noOpenFile
  | some file => setStore (·.write file w.offset stripe)

/-- Writes the out-of-line values of a stripe behind those so far. -/
def putToast (values : Bytes) : Writing Unit := do
  let w ← writer
  if !values.isEmpty then
    match w.toastFile with
    | none => throw .toastWithoutFile
    | some file => setStore (·.write file w.toastOffset values)

/-- Lists a stripe that was written, and moves on behind it. -/
def addStripe (w : Writer) (info : StripeInformation) : Writer :=
  { w with
    stripes := w.stripes ++ [info]
    offset := w.offset + info.length
    toastOffset := w.toastOffset + info.toastLength }

variable [Library]

/-- Writes columns as a stripe; gives the columns as they are once their streams were encoded. -/
def putStripe (columns : ColumnSet) (statistics : List ColumnStatistics) : Writing ColumnSet := do
  let (image, columns) := columns.serialize
  let image ← lift image
  let footer := Message.encode image.footer
  putToast columns.external
  putData (image.data ++ footer)
  setWriter fun w => w.addStripe
    { offset := w.offset
      dataLength := image.data.length
      footerLength := footer.length
      rows := columns.rows
      toastOffset := w.toastOffset
      toastLength := columns.external.length
      toastCount := columns.toastCount
      toastLengths := columns.externalLengths
      statistics }
  return columns

/-- Writes the rows so far as a stripe, if there are any. Whatever comes of it, the writer goes on
with empty columns; only after a success they have what was learned while the rows were encoded, and
only then the statistics begin anew. -/
def flush : Writing Unit := do
  let w ← writer
  lift w.checkOpen
  if 0 < w.columns.rows then
    let fresh ← lift (freshColumns w.options w.columns.attributes)
    setWriter fun w => { w with columns := fresh }
    let columns ← putStripe w.columns w.stripeStatistics.finish
    let fresh ← lift (freshColumns w.options columns.attributes)
    setWriter fun w => { w with columns := fresh, stripeStatistics := w.stripeStatistics.reset }

/-! ## Rows -/

/-- The stored values of a row, null being none; the first datum that does not fit its column is
refused. -/
def storedRow : List ColumnSpec → Row → Except Fault (List (Option Bytes))
  | spec :: schema, d :: row => do
    let value ← if d.isNull then pure none else some <$> d.stored spec.kind
    return value :: (← storedRow schema row)
  | _, _ => .ok []

/-- One more value of a column: in its place, or out of line if it is longer than allowed. -/
def appendValue (threshold : Option Nat) (c : Column) (value : Option Bytes) : Attempt Column :=
  match value, threshold with
  | none, _ => c.appendNull
  | some bs, some limit =>
    if c.kind.fixedWidth.isNone ∧ limit < bs.length then c.appendToast bs else c.append bs
  | some bs, none => c.append bs

/-- One more value of each column, up to the first failure. -/
def appendValues (threshold : Option Nat) (columns : ColumnSet) (values : List (Option Bytes)) :
    Attempt ColumnSet :=
  Attempt.all (fun s (value, i) => s.modify i fun c => appendValue threshold c value)
    values.zipIdx columns

/-- Counts a row in the statistics for the summary, if there are any of their own. -/
def countForSummary (row : Row) : Writing Unit := do
  match (← writer).summaryStatistics with
  | none => pure ()
  | some statistics =>
    let statistics ← lift (statistics.addRow row)
    setWriter fun w => { w with summaryStatistics := some statistics }

/-- Counts a row in the statistics. -/
def count (row : Row) : Writing Unit := do
  let w ← writer
  let stripeStatistics ← lift (w.stripeStatistics.addRow row)
  setWriter fun w => { w with stripeStatistics }
  let fileStatistics ← lift (w.fileStatistics.addRow row)
  setWriter fun w => { w with fileStatistics }
  countForSummary row
  setWriter fun w => { w with tuples := w.tuples + 1 }

/-- Writes a row. Nothing changes if one of its data does not fit. -/
def write (row : Row) : Writing Unit := do
  let w ← writer
  lift w.checkOpen
  if row.length ≠ w.options.schema.length then
    throw (.rowWidth row.length w.options.schema.length)
  let values ← lift (storedRow w.options.schema row)
  let (outcome, columns) := appendValues w.options.toastThreshold w.columns values
  setWriter fun w => { w with columns }
  lift outcome
  count row
  if w.options.groupLimit ≤ columns.rows then flush

end Writer

end ColumnFile
