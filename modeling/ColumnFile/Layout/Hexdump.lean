import ColumnFile.Layout.Annotations

/-! # Hexadecimal dumps

The octets of the named ranges in rows of sixteen, as digits and as characters. Ranges that overlap,
and octets between ranges, are pointed out. Of rows that repeat, the first repetition is shown and
the others are counted.

* `Hexdump.row` — one row.
* `Hexdump.rows` — the rows of a range.
* `Annotations.hexdump` — the dump.
-/

namespace ColumnFile

namespace Hexdump

/-- How many octets a row shows. -/
def rowWidth : Nat := 16

/-- How many octets stand together in a row. -/
def groupWidth : Nat := 4

/-- How many repetitions of a row are shown. -/
def repeatsShown : Nat := 1

/-- A number in at least `width` hexadecimal digits. -/
def digits (width n : Nat) : String :=
  let ds := Nat.toDigits 16 n
  String.ofList (List.replicate (width - ds.length) '0' ++ ds)

/-- Parts of at most `n` items, in order. -/
def chunks {α : Type} (n : Nat) (l : List α) : List (List α) :=
  if _h : 0 < n ∧ l ≠ [] then l.take n :: chunks n (l.drop n) else []
termination_by l.length
decreasing_by
  have := List.length_pos_iff.2 _h.2
  simp only [List.length_drop]
  omega

/-- The digits of the octets of a row. -/
def rowDigits (bs : Bytes) : String :=
  String.join ((chunks groupWidth bs).map fun group =>
    "  " ++ String.join (group.map fun b => " " ++ digits 2 b.toNat))

/-- The blanks that stand for the octets that a short row lacks; they are counted anew from its
end. -/
def rowBlanks (count : Nat) : String :=
  String.join ((List.range count).map fun i =>
    if i % groupWidth = groupWidth - 1 then "     " else "   ")

/-- The character that an octet stands for; those that cannot be seen are shown as points. -/
def character (b : UInt8) : Char :=
  if 0x21 ≤ b ∧ b ≤ 0x7e then Char.ofNat b.toNat else '.'

/-- One row, which begins at a position. -/
def row (position : Nat) (bs : Bytes) : String :=
  "\t " ++ digits 8 position ++ " |" ++ rowDigits bs ++ rowBlanks (rowWidth - bs.length) ++
    "   | " ++
    String.ofList (bs.map character)

/-- The line that counts repetitions, if there are more of them than are shown. -/
def repeats (position repeated : Nat) : List String :=
  if repeatsShown < repeated then
    ["\t " ++ digits 8 position ++
      s!" | ... previous line repeated {repeated - repeatsShown} times"]
  else []

/-- The rows from a position up to the end of a range, after a row that has been repeated. -/
def rowsFrom (stop : Nat) (position : Nat) (previous : Bytes) (repeated : Nat) :
    List Bytes → List String
  | [] => repeats stop repeated
  | bs :: rest =>
    if bs.length = rowWidth ∧ bs = previous then
      if repeatsShown < repeated + 1 then
        rowsFrom stop (position + rowWidth) previous (repeated + 1) rest
      else row position bs :: rowsFrom stop (position + rowWidth) bs (repeated + 1) rest
    else
      repeats position repeated ++ row position bs :: rowsFrom stop (position + rowWidth) bs 0 rest

/-- The rows of a range of octets. -/
def rows (range : ByteRange) (bs : Bytes) : List String :=
  rowsFrom range.stop range.start [] 0 (chunks rowWidth bs)

/-- The lines of named ranges, the octets before `position` having been shown. -/
def lines (buffer : Bytes) (position : Nat) : List (ByteRange × String) → List String
  | [] => []
  | (range, name) :: rest =>
    if range.stop ≤ range.start then lines buffer position rest
    else
      let overlap :=
        if range.start < position then [s!"- ERROR: {name} overlaps previous range"] else []
      let gap :=
        if position < range.start then
          [s!"- ERROR: unannotated ({range.start - position} bytes)"]
        else []
      let body :=
        match buffer.slice? range.start range.length with
        | some bs => rows range bs
        | none => [s!"- ERROR: {name} past end of buffer"]
      overlap ++ gap ++ s!"- {name} ({range.length} bytes):" :: body ++
        lines buffer range.stop rest

end Hexdump

/-- The dump of a buffer by named ranges; every line is ended. -/
def Annotations.hexdump (a : Annotations) (buffer : Bytes) : String :=
  String.join ((Hexdump.lines buffer 0 a.ranges).map (· ++ "\n"))

end ColumnFile
