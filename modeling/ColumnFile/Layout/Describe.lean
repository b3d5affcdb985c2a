import ColumnFile.Layout.Annotations
import ColumnFile.Reader.Basic

/-! # The layout of a file

* `Annotations.ofFile` — every range of octets of a file, in order.
-/

namespace ColumnFile

namespace Annotations

/-- Names the streams that begin at a position, and gives where they end. -/
def annotateStreams (a : Annotations) (position : Nat) : List StreamEntry → Annotations × Nat
  | [] => (a, position)
  | e :: rest =>
    let start := position + e.padding
    let a := if 0 < e.padding then a.annotate position start "padding" else a
    let name := s!"column.{e.column}.{e.kind.label}"
    annotateStreams (a.annotate start (start + e.length) name) (start + e.length) rest

/-- Names the parts of a stripe. -/
def annotateStripe (a : Annotations) (store : Store) (file : FileId) (index : Nat)
    (info : StripeInformation) : Except Fault Annotations := do
  let stop := info.offset + info.dataLength
  let footer ← Message.decode StripeFooter (← store.read file stop info.footerLength)
  let (a, position) :=
    ((a.push "stripe").push (toString index)).annotateStreams info.offset footer.streams
  if position ≠ stop then throw (.stripeLayout index position stop)
  return (a.annotate stop (stop + info.footerLength) "footer").pop.pop

/-- Names every range of the file that a path leads to, in order. -/
def ofFile (store : Store) (path : String) : Except Fault Annotations := do
  let reader ← Reader.ofFile store path {}
  let file ← store.open? path
  let stripes := reader.footer.stripes.zipIdx
  let a ← stripes.foldlM (fun (a : Annotations) (info, index) =>
    a.annotateStripe store file index info) {}
  let length := store.length file
  let trailer := length - Trailer.size
  let postscriptLength ← Trailer.decode (← store.read file trailer Trailer.size)
  let postscript := trailer - postscriptLength
  return ((a.annotate reader.footer.contentLength postscript "file_footer").annotate
    postscript trailer "postscript").annotate trailer length "trailer"

end Annotations

end ColumnFile
