import ColumnFile.Integer.Difference

/-! # Distances around the 64-bit circle

* **`length_differences`** — a list has one distance fewer than integers.
* **`base_add_excess`** — a value is its base and what lies above it, whatever wraps around. -/

namespace ColumnFile

/-- There is one difference less than numbers. -/
theorem length_differences (a : Int64) (rest : List Int64) :
    (differences (a :: rest)).length = rest.length := by
  induction rest generalizing a with
  | nil => rfl
  | cons b rest ih => rw [differences, List.length_cons, ih, List.length_cons]

/-- **A value is its base and what lies above it**, around the 64-bit circle. -/
theorem base_add_excess (base v : Int64) : base + Int64.ofNat (v - base).toUInt64.toNat = v := by
  rw [← UInt64.toInt64_ofNat', UInt64.ofNat_toNat, Int64.toInt64_toUInt64, Int64.add_comm,
    Int64.sub_add_cancel]

end ColumnFile
