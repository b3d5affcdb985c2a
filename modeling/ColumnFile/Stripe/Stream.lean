import ColumnFile.Schema.Encoding

/-! # Streams of a stripe

A stripe is the streams of its columns one after another, followed by a footer that lists them.

* `StreamKind` — what a stream holds.
* `StreamEntry` — one stream in the list.
* `StripeFooter` — the streams and the encodings of the columns.
-/

namespace ColumnFile

/-- What a **stream** holds. -/
inductive StreamKind
  /-- The bitmap of the rows that are not null; only columns with nulls have it. -/
  | present
  /-- The data. -/
  | data
  /-- The offsets of a column of variable length. -/
  | offsets
  /-- The bitmap of the rows that hold references to out-of-line values. -/
  | toast
deriving DecidableEq, Repr, Inhabited

namespace StreamKind

/-- Every kind, in the order of declaration. -/
def all : List StreamKind := [present, data, offsets, toast]

/-- The name under which a kind is recorded. -/
def name : StreamKind → String
  | present => "Present"
  | data => "Data"
  | offsets => "Offset"
  | toast => "Toast"

/-- The name under which a kind is shown. -/
def label : StreamKind → String
  | present => "present"
  | data => "data"
  | offsets => "offsets"
  | toast => "toast"

end StreamKind

/-- One stream of a stripe, as its footer lists it. -/
structure StreamEntry where
  /-- What the stream holds. -/
  kind : StreamKind
  /-- The column it belongs to. -/
  column : Nat
  /-- How many octets it takes. -/
  length : Nat
  /-- How many zeros stand before it to align it. -/
  padding : Nat
deriving DecidableEq, Repr, Inhabited

/-- The **footer** of a stripe. -/
structure StripeFooter where
  /-- The streams, in the order in which they follow each other. -/
  streams : List StreamEntry := []
  /-- The encodings of the columns, in their order. -/
  encodings : List ColumnEncoding := []
deriving DecidableEq, Repr, Inhabited

/-- The encoding that a stripe records for a stream; bitmaps are stored as they are. -/
def StripeFooter.choiceOf (footer : StripeFooter) (entry : StreamEntry) : EncodingChoice :=
  match footer.encodings[entry.column]?, entry.kind with
  | some e, .data => e.data
  | some e, .offsets => e.offsets
  | _, _ => .none

end ColumnFile
