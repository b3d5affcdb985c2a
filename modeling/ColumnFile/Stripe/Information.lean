import ColumnFile.Statistics.Basic

/-! # Stripe directory

Where a stripe is in its file, where its out-of-line values are in the file beside it, and what its
rows are like.

* `StripeInformation` — one entry of the directory.
* `StripeInformation.toastBase` — where the out-of-line values of a column begin.
-/

namespace ColumnFile

/-- One stripe, as the directory of a file lists it. -/
structure StripeInformation where
  /-- Where the stripe begins. -/
  offset : Nat
  /-- How many octets its streams take. -/
  dataLength : Nat
  /-- How many octets its footer takes. -/
  footerLength : Nat
  /-- How many rows it has. -/
  rows : Nat
  /-- Where its out-of-line values begin. -/
  toastOffset : Nat
  /-- How many octets they take. -/
  toastLength : Nat
  /-- How many of them there are. -/
  toastCount : Nat
  /-- How many octets of them each column has; the columns follow each other. -/
  toastLengths : List Nat
  /-- The statistics of the columns. -/
  statistics : List ColumnStatistics
deriving DecidableEq, Repr, Inhabited

namespace StripeInformation

/-- How many octets the stripe takes. -/
def length (info : StripeInformation) : Nat := info.dataLength + info.footerLength

/-- Where the out-of-line values of a column begin. -/
def toastBase (info : StripeInformation) (column : Nat) : Nat :=
  info.toastOffset + (info.toastLengths.take column).foldr (· + ·) 0

end StripeInformation

end ColumnFile
