import ColumnFile.Column.Decode
import ColumnFile.Stripe.ColumnSet
import ColumnFile.Stripe.Stream

/-! # Reading stripes

The footer of a stripe tells where its streams are: they follow each other, each behind its padding.

* `StripeFooter.locate` — the streams of each column.
* `ColumnSet.decode` — the columns of a stripe.
-/

namespace ColumnFile

/-- Puts a stream in its place; a later stream of a kind takes the place of an earlier one. -/
def ColumnStreams.put (streams : ColumnStreams) (kind : StreamKind) (bs : Bytes) : ColumnStreams :=
  match kind with
  | .present => { streams with present := some bs }
  | .data => { streams with data := bs }
  | .offsets => { streams with offsets := some bs }
  | .toast => { streams with toast := some bs }

namespace StripeFooter

/-- Puts the listed streams in their places, the first one being at the start of `data`. -/
def locateFrom (found : List ColumnStreams) :
    (entries : List StreamEntry) → (data : Bytes) → Except Fault (List ColumnStreams)
  | [], _ => .ok found
  | e :: entries, data =>
    match found[e.column]? with
    | none => .error (.streamBeyondSchema e.column)
    | some streams =>
      match data.slice? e.padding e.length with
      | none => .error .streamPastEnd
      | some bs =>
        locateFrom (found.set e.column (streams.put e.kind bs)) entries
          (data.drop (e.padding + e.length))

/-- The streams of each of `columns` columns in the data of a stripe. -/
def locate (footer : StripeFooter) (columns : Nat) (data : Bytes) :
    Except Fault (List ColumnStreams) :=
  locateFrom (List.replicate columns {}) footer.streams data

end StripeFooter

namespace ColumnSet

variable [BlockLibrary]

/-- Decodes column after column. -/
def decodeAll (format : StorageFormat) (rows : Nat) :
    List ColumnSpec → List ColumnEncoding → List ColumnStreams → Except Fault (List Column)
  | spec :: schema, encoding :: encodings, streams :: rest => do
    let column ← Column.decode spec format encoding rows streams
    return column :: (← decodeAll format rows schema encodings rest)
  | _, _, _ => .ok []

/-- The columns of a stripe of `rows` rows. -/
def decode (schema : List ColumnSpec) (format : StorageFormat) (footer : StripeFooter)
    (rows : Nat) (data : Bytes) : Except Fault ColumnSet := do
  if footer.encodings.length ≠ schema.length then
    throw (.encodingCount footer.encodings.length schema.length)
  let streams ← footer.locate schema.length data
  return { columns := ← decodeAll format rows schema footer.encodings streams }

end ColumnSet

end ColumnFile
