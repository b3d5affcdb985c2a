import ColumnFile.Fault
import Mathlib.Algebra.Ring.Int.Defs
import Mathlib.Algebra.Ring.Nat
import Mathlib.Data.List.Forall2

/-! # Chains of steps that may fail

How a chain of steps is peeled apart, one step at a time.

* **`ok_bind`** — a chain whose first step succeeds goes on with its result.
* **`bind_eq_ok`** — a chain that succeeds, took a first step that did; so does `map_eq_ok` for
  results that were mapped.
* **`mapM_eq_ok`** — steps for the members of a list; `partner` finds the result of one of them. -/

namespace ColumnFile

variable {ε α β : Type} {f : α → Except ε β}

/-- A chain whose first step succeeds goes on with its result. -/
@[simp] theorem ok_bind (a : α) (f : α → Except ε β) : (Except.ok a >>= f) = f a := rfl

/-- A chain whose first step fails ends there. -/
@[simp] theorem error_bind (e : ε) (f : α → Except ε β) : (Except.error e >>= f) = .error e := rfl

/-- **A chain that succeeds** took a first step that did. -/
theorem bind_eq_ok {x : Except ε α} {b : β} (h : (x >>= f) = .ok b) :
    ∃ a, x = .ok a ∧ f a = .ok b := by
  cases x with
  | error e => cases h
  | ok a => exact ⟨a, rfl, h⟩

/-- **A result that was mapped** comes from a result. -/
theorem map_eq_ok {g : α → β} {x : Except ε α} {b : β} (h : x.map g = .ok b) :
    ∃ a, x = .ok a ∧ g a = b := by
  cases x with
  | error e => cases h
  | ok a =>
      cases h
      exact ⟨a, rfl, rfl⟩

/-- **A step for each member of a list** succeeds if every one of them does. -/
theorem mapM_eq_ok {P : α → β → Prop} {l : List α} (h : ∀ a ∈ l, ∃ b, f a = .ok b ∧ P a b) :
    ∃ bs, l.mapM f = .ok bs ∧ List.Forall₂ P l bs := by
  induction l with
  | nil => exact ⟨[], rfl, .nil⟩
  | cons a l ih =>
      obtain ⟨b, hb, hP⟩ := h a List.mem_cons_self
      obtain ⟨bs, hbs, hall⟩ := ih fun a ha => h a (List.mem_cons_of_mem _ ha)
      refine ⟨b :: bs, ?_, .cons hP hall⟩
      rw [List.mapM_cons, hb, ok_bind, hbs]
      rfl

/-- A step that never fails maps all. -/
theorem mapM_eq_map {g : α → β} {l : List α} (h : ∀ a ∈ l, f a = .ok (g a)) :
    l.mapM f = .ok (l.map g) := by
  obtain ⟨bs, hbs, hall⟩ := mapM_eq_ok (P := fun a b => b = g a) fun a ha => ⟨g a, h a ha, rfl⟩
  have hmap : bs = l.map g := by
    clear hbs h
    induction hall with
    | nil => rfl
    | cons hb _ ih => rw [List.map_cons, hb, ih]
  rw [hbs, hmap]

/-- The partner of a member of a list, in a list beside it. -/
theorem partner {R : α → β → Prop} {l : List α} {l' : List β} (h : List.Forall₂ R l l')
    {i : Nat} {a : α} (ha : l[i]? = some a) : ∃ b, l'[i]? = some b ∧ R a b := by
  induction h generalizing i with
  | nil => cases ha
  | cons hR _ ih =>
      cases i with
      | zero =>
          cases ha
          exact ⟨_, rfl, hR⟩
      | succ i => exact ih ha

end ColumnFile
