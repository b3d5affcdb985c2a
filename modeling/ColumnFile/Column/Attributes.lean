/-! # Attributes

What was learned about a column while one stripe was written, for the columns of the next: values by
names, in the order of the names.

* `Attributes` — names and values.
* `Attributes.get?`, `Attributes.put` — a value by its name.
-/

namespace ColumnFile

/-- The **attributes** of a column, in the order of their names. -/
abbrev Attributes : Type := List (String × String)

namespace Attributes

/-- The value of a name. -/
def get? (a : Attributes) (name : String) : Option String := a.lookup name

/-- Gives a name a value. -/
def put (name value : String) : Attributes → Attributes
  | [] => [(name, value)]
  | (n, v) :: rest =>
    if name = n then (name, value) :: rest
    else if name < n then (name, value) :: (n, v) :: rest
    else (n, v) :: put name value rest

/-- A value that was just put is found. -/
@[simp] theorem get?_put (a : Attributes) (name value : String) :
    (a.put name value).get? name = some value := by
  induction a with
  | nil => simp [put, get?]
  | cons p rest ih =>
    obtain ⟨n, v⟩ := p
    unfold put
    split
    · simp [get?]
    · split
      · simp [get?]
      · rename_i h _
        have hne : (name == n) = false := by simp [h]
        simpa [get?, List.lookup_cons, hne] using ih

end Attributes

end ColumnFile
