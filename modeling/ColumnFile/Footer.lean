import ColumnFile.Column.Attributes
import ColumnFile.Fault
import ColumnFile.Stripe.Information

/-! # The end of a file

Behind the stripes of a file come its footer, which lists them; a postscript, which tells how long
the footer is; and a trailer, which tells how long the postscript is and is always as long itself.

* `FileFooter` — the footer.
* `PostScript` — the postscript.
* `Trailer.encode`, `Trailer.decode` — the trailer.
-/

namespace ColumnFile

/-- The **footer** of a file. -/
structure FileFooter where
  /-- How many octets the stripes take; the footer begins behind them. -/
  contentLength : Nat := 0
  /-- How many rows the stripes have. -/
  rows : Nat := 0
  /-- The storage format of the columns. -/
  format : StorageFormat := .padded
  /-- The columns. -/
  schema : List ColumnSpec := []
  /-- The attributes of the columns. -/
  attributes : List Attributes := []
  /-- The stripes, in the order of their rows. -/
  stripes : List StripeInformation := []
  /-- The statistics of the columns. -/
  statistics : List ColumnStatistics := []
deriving DecidableEq, Repr, Inhabited

/-- The **postscript** of a file. -/
structure PostScript where
  /-- The mark of the format. -/
  magic : String
  /-- The version of the format. -/
  version : Nat
  /-- The program that wrote the file. -/
  writer : String
  /-- How many octets the footer takes. -/
  footerLength : Nat
deriving DecidableEq, Repr, Inhabited

namespace PostScript

/-- The mark of the format. -/
def formatMagic : String := "PORC"

/-- The version of the format. -/
def formatVersion : Nat := 1

/-- The name under which this writer is recorded. -/
def writerName : String := "pax-coldb"

/-- The postscript behind a footer. -/
def new (footerLength : Nat) : PostScript where
  magic := formatMagic
  version := formatVersion
  writer := writerName
  footerLength := footerLength

/-- Refuses a file of another format or version. -/
def check (p : PostScript) : Except Fault Unit :=
  if p.magic ≠ formatMagic then .error (.badMagic p.magic)
  else if p.version ≠ formatVersion then .error (.badVersion p.version)
  else .ok ()

@[simp] theorem check_new (footerLength : Nat) : (new footerLength).check = .ok () := rfl

end PostScript

namespace Trailer

/-- How many octets the trailer takes. -/
def size : Nat := 8

/-- The trailer behind a postscript of some octets. -/
def encode (postscriptLength : Nat) : Bytes := Bytes.ofNatLE size postscriptLength

@[simp] theorem length_encode (n : Nat) : (encode n).length = size := by simp [encode]

/-- The length of the postscript before a trailer. -/
def decode (bs : Bytes) : Except Fault Nat :=
  if bs.length ≠ size then .error .shortTrailer else .ok (Bytes.toNatLE bs)

end Trailer

end ColumnFile
