import ColumnFile.MessagePack.Shape
import ColumnFile.Statistics.Basic

/-! # Statistics as messages

* `ValueRange.shape` — a range, under the name of its kind.
* `BloomFilter.shape`, `ColumnStatistics.shape` — records.
-/

namespace ColumnFile

open MessagePack (Fields Shape Shaped Value)

namespace ValueRange

/-- The names of the kinds of ranges. -/
def kindNames : List String := ["Int", "Float", "Bytes"]

/-- The names of the ends of a range. -/
def endNames : List String := ["min", "max"]

/-- A range under the name of its kind. -/
def tagged {α : Type} (name : String) (s : Shape α) (min max : α) : Value :=
  .ofFields [(name, .ofFields (endNames.zip [s.write min, s.write max]))]

/-- Reads the two ends of a range. -/
def readEnds {α : Type} (s : Shape α) (build : α → α → ValueRange) (levels : Nat) (v : Value) :
    Option ValueRange := do
  let f ← Fields.ofValue? endNames levels v
  return build (← f.get "min" s) (← f.get "max" s)

/-- The octets of a byte string, one number each. -/
def octets : Shape Bytes := .list .octet

/-- The record of a range. -/
def shape : Shape ValueRange where
  write
    | ints min max => tagged "Int" .int64 min max
    | floats min max => tagged "Float" .double min max
    | strings min max => tagged "Bytes" octets min max
  read
    | levels, .map [(key, body)] => do
      match ← Shape.lookup kindNames id key with
      | "Int" => readEnds .int64 ints levels body
      | "Float" => readEnds .double floats levels body
      | _ => readEnds octets strings levels body
    | _, _ => none

end ValueRange

/-- The record of a filter. -/
def BloomFilter.shape : Shape BloomFilter :=
  .record ["bits", "hashes"]
    (fun b => [(Shape.list .word64).write b.words.toList, (Shape.nat 32).write b.hashes])
    fun f => do
      let words ← f.get "bits" (.list .word64)
      return { words := words.toArray, hashes := ← f.get "hashes" (.nat 32) }

/-- A filter is written in its shape. -/
instance : Shaped BloomFilter := ⟨BloomFilter.shape⟩

/-- The record of the statistics of a column. -/
def ColumnStatistics.shape : Shape ColumnStatistics :=
  .record ["rows", "non_null_rows", "has_null", "all_null", "min_max", "bloom"]
    (fun s =>
      [(Shape.nat 64).write s.rows, (Shape.nat 64).write s.nonNull, Shape.bool.write s.hasNull,
        Shape.bool.write s.allNull, (Shape.option ValueRange.shape).write s.range,
        (Shape.option BloomFilter.shape).write s.bloom])
    fun f => do
      return {
        rows := ← f.get "rows" (.nat 64)
        nonNull := ← f.get "non_null_rows" (.nat 64)
        hasNull := ← f.get "has_null" .bool
        allNull := ← f.get "all_null" .bool
        range := ← f.get "min_max" (.option ValueRange.shape)
        bloom := ← f.get "bloom" (.option BloomFilter.shape) }

/-- The statistics of a column are written in their shape. -/
instance : Shaped ColumnStatistics := ⟨ColumnStatistics.shape⟩

end ColumnFile
