import ColumnFile.Message.Basic
import ColumnFile.Message.Footer
import ColumnFile.Stripe.Decode

/-! # Stripes of a file

* `FileFooter.decodeStripe` — the columns of the octets of a stripe.
-/

namespace ColumnFile

variable [BlockLibrary]

/-- The columns of a stripe: its octets are its streams and its footer. -/
def FileFooter.decodeStripe (file : FileFooter) (info : StripeInformation) (stripe : Bytes) :
    Except Fault ColumnSet :=
  if stripe.length < info.dataLength then
    .error (.stripeDataLength info.dataLength stripe.length)
  else do
    let footer ← Message.decode StripeFooter (stripe.drop info.dataLength)
    ColumnSet.decode file.schema file.format footer info.rows (stripe.take info.dataLength)

end ColumnFile
