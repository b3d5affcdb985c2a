import ColumnFile.Message.Footer
import ColumnFile.Writer.Write

/-! # Closing files

* `Writer.close` — the footer, and the summary.
-/

namespace ColumnFile

namespace Writer

open Writing

/-- The footer of the stripes so far. -/
def footer [BloomScheme] (w : Writer) : FileFooter where
  contentLength := w.offset
  rows := w.tuples
  format := w.options.format
  schema := w.options.schema
  attributes := w.columns.attributes
  stripes := w.stripes
  statistics := w.fileStatistics.finish

/-- What follows the stripes of a file: its footer, the postscript and the trailer. -/
def tail (footer : FileFooter) : Bytes :=
  let footer := Message.encode footer
  let postscript := Message.encode (PostScript.new footer.length)
  footer ++ postscript ++ Trailer.encode postscript.length

/-- The summary of a file that ends with some octets. -/
def summary [BloomScheme] (w : Writer) (tail : Bytes) : WriteSummary where
  fileName := w.options.fileName
  blockId := w.options.blockId
  relId := w.options.relId
  fileSize := w.offset + tail.length
  tuples := w.tuples
  hasToast := 0 < w.toastOffset
  statistics := (w.summaryStatistics.getD w.fileStatistics).finish

/-- Lets go of the file of out-of-line values, and deletes it if there are none. -/
def closeToast : Writing Unit := do
  let w ← writer
  setWriter fun w => { w with toastFile := none }
  if w.toastFile.isSome ∧ w.toastOffset = 0 then
    let store ← lift ((← store).delete w.options.toastFileName)
    setStore fun _ => store

variable [Library]

/-- Writes the rows that are left and the end of the file. Closing twice changes nothing. -/
def close : Writing Unit := do
  if !(← writer).closed then
    flush
    let w ← writer
    let tail := tail w.footer
    setWriter fun w => { w with file := none }
    match w.file with
    | none => throw .noOpenFile
    | some file => setStore (·.write file w.offset tail)
    closeToast
    setWriter fun w => { w with closed := true }
    setArchive fun a => { a with summaries := a.summaries ++ [w.summary tail] }

end Writer

end ColumnFile
