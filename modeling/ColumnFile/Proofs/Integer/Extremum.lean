/-! # Least and greatest members

The folds with which the codecs find the least and the greatest of some numbers bound all of them.

* **`foldl_bounds`** — a fold of an operation that is below both operands is below all that it
  folds.
* **`le_foldl_max`**, **`foldl_min_le`**, **`le_foldl_max64`** — its instances. -/

namespace ColumnFile

/-- **A fold of an operation whose result is related to both operands** is related to the start of
the fold and to every member. -/
theorem foldl_bounds {α : Type} {r : α → α → Prop} {f : α → α → α} (hrefl : ∀ a, r a a)
    (htrans : ∀ {a b c}, r a b → r b c → r a c) (hleft : ∀ a b, r (f a b) a)
    (hright : ∀ a b, r (f a b) b) (a : α) (xs : List α) :
    r (xs.foldl f a) a ∧ ∀ x ∈ xs, r (xs.foldl f a) x := by
  induction xs generalizing a with
  | nil => exact ⟨hrefl a, by simp⟩
  | cons hd tl ih =>
      obtain ⟨hstart, hmem⟩ := ih (f a hd)
      rw [List.foldl_cons]
      refine ⟨htrans hstart (hleft a hd), ?_⟩
      intro x hx
      rcases List.mem_cons.mp hx with rfl | hx
      · exact htrans hstart (hright a x)
      · exact hmem x hx

/-- The greatest natural number is at least where the fold starts and at least every member. -/
theorem le_foldl_max (a : Nat) (xs : List Nat) : a ≤ xs.foldl max a ∧
    ∀ x ∈ xs, x ≤ xs.foldl max a :=
  foldl_bounds (r := fun a b => b ≤ a) Nat.le_refl (fun h h' => Nat.le_trans h' h)
    (fun a b => Nat.le_max_left a b) (fun a b => Nat.le_max_right a b) a xs

/-- The greatest natural number is below every bound of all of them. -/
theorem foldl_max_lt {a bound : Nat} {xs : List Nat} (ha : a < bound) (hxs : ∀ x ∈ xs, x < bound) :
    xs.foldl max a < bound := by
  induction xs generalizing a with
  | nil => exact ha
  | cons hd tl ih =>
      have hhd := hxs hd List.mem_cons_self
      exact ih (by omega) fun x hx => hxs x (List.mem_cons_of_mem _ hx)

/-- The least integer is at most where the fold starts and at most every member. -/
theorem foldl_min_le (a : Int64) (xs : List Int64) :
    xs.foldl min a ≤ a ∧ ∀ x ∈ xs, xs.foldl min a ≤ x :=
  foldl_bounds Int64.le_refl Int64.le_trans (fun _ _ => Std.min_le_left)
    (fun _ _ => Std.min_le_right) a xs

/-- The greater of two is at least each of them. -/
theorem le_max64 (a b : Int64) : a ≤ max a b ∧ b ≤ max a b := by
  have hmax : max a b = if a ≤ b then b else a := rfl
  rw [hmax]
  by_cases h : a ≤ b
  · rw [if_pos h]
    exact ⟨h, Int64.le_refl b⟩
  · rw [if_neg h]
    exact ⟨Int64.le_refl a, Int64.le_of_lt (Int64.not_le.mp h)⟩

/-- The greatest integer is at least where the fold starts and at least every member. -/
theorem le_foldl_max64 (a : Int64) (xs : List Int64) :
    a ≤ xs.foldl max a ∧ ∀ x ∈ xs, x ≤ xs.foldl max a :=
  foldl_bounds (r := fun a b => b ≤ a) Int64.le_refl (fun h h' => Int64.le_trans h' h)
    (fun a b => (le_max64 a b).1) (fun a b => (le_max64 a b).2) a xs

end ColumnFile
