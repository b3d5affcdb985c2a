/-! # Differences

The distances between the neighbours of a list of integers, and the list that they rebuild.
Arithmetic wraps around, so every list is rebuilt.

* `differences` — the distance from each integer to the next.
* `sums` — the integers that follow a first one at given distances.
-/

namespace ColumnFile

/-- The distance from each integer to the next. -/
def differences : List Int64 → List Int64
  | a :: b :: rest => (b - a) :: differences (b :: rest)
  | _ => []

/-- The integers that follow `first` at the given distances. -/
def sums : (first : Int64) → (distances : List Int64) → List Int64
  | _, [] => []
  | first, d :: rest => (first + d) :: sums (first + d) rest

@[simp] theorem length_sums (first : Int64) (ds : List Int64) :
    (sums first ds).length = ds.length := by
  induction ds generalizing first with
  | nil => rfl
  | cons d rest ih => simp [sums, ih]

/-- The differences of a list rebuild it behind its first integer. -/
@[simp] theorem sums_differences (a : Int64) (rest : List Int64) :
    sums a (differences (a :: rest)) = rest := by
  induction rest generalizing a with
  | nil => rfl
  | cons b rest ih =>
    have h : a + (b - a) = b := by rw [Int64.add_comm, Int64.sub_add_cancel]
    simp [differences, sums, h, ih]

end ColumnFile
