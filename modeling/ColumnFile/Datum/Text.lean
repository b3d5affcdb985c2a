import ColumnFile.Datum.Basic
import ColumnFile.Decimal.Shortest
import ColumnFile.Text.Quoted

/-! # The text of a datum

How a datum is shown in a message: its constructor and its value. A number with a fraction has the
fewest digits that read back.

* `FloatText` — the format's choices for numbers with a fraction.
* `Binary.text` — the text of a bit pattern.
* `Datum.text` — the text of a datum.
-/

namespace ColumnFile

/-- How numbers with a fraction are written. -/
structure FloatText where
  /-- The least power of ten written positionally. -/
  leastPower : Int
  /-- The first power of ten past the positional ones. -/
  pastPower : Int
  /-- What stands between the digits and a power of ten. -/
  mark : String
  /-- The text of what is no number. -/
  nan : String
  /-- The text of infinity. -/
  infinity : String

/-- Numbers from `0.0001` to below `10 ^ 16` are written positionally, with at least one digit
behind the point; others with a power of ten. -/
def Datum.floatText : FloatText where
  leastPower := -4
  pastPower := 16
  mark := "e"
  nan := "NaN"
  infinity := "inf"

namespace Decimal

/-- The digits around a decimal point, at least one on each side. -/
def positional (d : Decimal) : String :=
  if d.exponent < 0 then
    "0." ++ String.ofList (List.replicate (-d.exponent - 1).toNat '0' ++ d.digits)
  else
    let whole := d.exponent.toNat + 1
    let digits := d.digits ++ List.replicate (whole - d.digits.length) '0'
    let fraction := digits.drop whole
    String.ofList (digits.take whole) ++ "." ++
      (if fraction.isEmpty then "0" else String.ofList fraction)

/-- One digit, the others behind a point, and the power of ten. -/
def scientific (d : Decimal) (mark : String) : String :=
  let fraction := d.digits.drop 1
  String.ofList (d.digits.take 1) ++
    (if fraction.isEmpty then "" else "." ++ String.ofList fraction) ++ mark ++ toString d.exponent

end Decimal

/-- The text of a bit pattern. -/
def Binary.text (f : Binary) (style : FloatText) (bits : Nat) : String :=
  if f.isNaN bits then style.nan
  else
    let sign := if f.isNegative bits then "-" else ""
    if f.isSpecial bits then sign ++ style.infinity
    else if f.significand bits = 0 then sign ++ "0.0"
    else
      let d := f.shortest bits
      if style.leastPower ≤ d.exponent ∧ d.exponent < style.pastPower then sign ++ d.positional
      else sign ++ d.scientific style.mark

namespace Datum

/-- The text of a datum in a message. -/
def text : Datum → String
  | null => "Null"
  | bool v => s!"Bool({v})"
  | int8 v => s!"Int8({v})"
  | int16 v => s!"Int16({v})"
  | int32 v => s!"Int32({v})"
  | int64 v => s!"Int64({v})"
  | float32 bits => s!"Float32({Binary.single.text floatText bits.toNat})"
  | float64 bits => s!"Float64({Binary.double.text floatText bits.toNat})"
  | bytes v => s!"Bytes({Text.brackets (v.map toString)})"

end Datum

end ColumnFile
