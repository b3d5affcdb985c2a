import ColumnFile.Proofs.Column.Basic
import ColumnFile.Stripe.ColumnSet
import Mathlib.Logic.Function.Basic

/-! # Column sets hold their cells

The columns of a stripe, each with cells of its own, through every step of growth.

* **`ColumnSet.HoldsFrom`** — columns that hold cells, the first being that of a place; `get` is one
  of them.
* **`ColumnSet.newFrom_spec`**, **`ColumnSet.modify_spec`** — new columns, and a step of one column.
* **`ColumnSet.Step`** — the steps by which columns grow; **`ColumnSet.Built`** is what they lead
  to. -/

namespace ColumnFile

namespace ColumnSet

variable {format : StorageFormat} {cells : Nat → List Cell} {i : Nat} {columns : List Column}
  {schema : List ColumnSpec}

/-- **New columns are made** for every schema whose alignments are valid. -/
theorem newFrom_total (choices : Nat → EncodingChoice) (offsets : EncodingChoice) (i : Nat)
    (attributes : List Attributes) (hvalid : ∀ spec ∈ schema, spec.validAlign = true) :
    ∃ columns, newFrom format choices offsets i schema attributes = .ok columns := by
  induction schema generalizing i attributes with
  | nil => exact ⟨[], rfl⟩
  | cons spec schema ih =>
      obtain ⟨c, hc⟩ := Column.new_total format (choices i) offsets (attributes.headD [])
        (hvalid spec List.mem_cons_self)
      obtain ⟨rest, hrest⟩ := ih (i + 1) attributes.tail fun spec hmem =>
        hvalid spec (List.mem_cons_of_mem _ hmem)
      rw [newFrom, hc, ok_bind, hrest]
      exact ⟨c :: rest, rfl⟩

/-- **A step of one column** that succeeds found the column, and changed nothing else. -/
theorem modify_eq_ok {s s' : ColumnSet} {step : Column → Attempt Column}
    (h : s.modify i step = (.ok (), s')) :
    ∃ c c', s.columns[i]? = some c ∧ step c = (.ok (), c') ∧ s'.columns = s.columns.set i c' := by
  unfold modify at h
  cases hcolumn : s.columns[i]? with
  | none =>
      rw [hcolumn] at h
      cases h
  | some c =>
      rw [hcolumn] at h
      rw [Prod.mk.injEq] at h
      obtain ⟨hok, rfl⟩ := h
      exact ⟨c, (step c).2, rfl, Prod.ext hok rfl, rfl⟩

variable [BlockLibrary]

/-! ## (1) Columns and their cells -/

/-- **Columns hold cells**: each column of the list does, the first one those of place `i`. -/
inductive HoldsFrom (format : StorageFormat) (cells : Nat → List Cell) :
    Nat → List Column → List ColumnSpec → Prop
  /-- No columns. -/
  | nil {i : Nat} : HoldsFrom format cells i [] []
  /-- One more column in front. -/
  | cons {i : Nat} {c : Column} {spec : ColumnSpec} {columns : List Column}
      {schema : List ColumnSpec}
      (hc : c.Holds spec format (cells i)) (hrest : HoldsFrom format cells (i + 1) columns schema) :
      HoldsFrom format cells i (c :: columns) (spec :: schema)

/-- There are as many columns as the schema has. -/
theorem HoldsFrom.length_eq (h : HoldsFrom format cells i columns schema) :
    columns.length = schema.length := by
  induction h with
  | nil => rfl
  | cons hc hrest ih => rw [List.length_cons, List.length_cons, ih]

/-- **The column at a place** holds the cells of that place. -/
theorem HoldsFrom.get (h : HoldsFrom format cells i columns schema) {k : Nat} {c : Column}
    (hk : columns[k]? = some c) :
    ∃ spec, schema[k]? = some spec ∧ c.Holds spec format (cells (i + k)) := by
  induction h generalizing k with
  | nil => cases hk
  | @cons i c' spec columns schema hc hrest ih =>
      cases k with
      | zero =>
          cases hk
          exact ⟨spec, rfl, hc⟩
      | succ k =>
          obtain ⟨spec', hspec, hholds⟩ := ih hk
          refine ⟨spec', hspec, ?_⟩
          rw [Nat.add_comm k 1, ← Nat.add_assoc]
          exact hholds

/-- **What the cells decide** is the same for columns that hold the same cells. -/
theorem HoldsFrom.map_eq {α : Type} {f : Column → α} {columns' : List Column}
    (h : HoldsFrom format cells i columns schema) (h' : HoldsFrom format cells i columns' schema)
    (hf : ∀ {c c' : Column} {spec : ColumnSpec} {cells : List Cell}, c.Holds spec format cells →
      c'.Holds spec format cells → f c' = f c) :
    columns'.map f = columns.map f := by
  induction h generalizing columns' with
  | nil =>
      cases h'
      rfl
  | cons hc hrest ih =>
      cases h' with
      | cons hc' hrest' => rw [List.map_cons, List.map_cons, hf hc hc', ih hrest']

/-- Columns hold other cells that are the same at their places. -/
theorem HoldsFrom.congr (h : HoldsFrom format cells i columns schema) {cells' : Nat → List Cell}
    (hsame : ∀ k, i ≤ k → cells' k = cells k) : HoldsFrom format cells' i columns schema := by
  induction h with
  | nil => exact .nil
  | @cons i c spec columns schema hc hrest ih =>
      refine .cons ?_ (ih fun k hk => hsame k (by omega))
      rw [hsame i (Nat.le_refl i)]
      exact hc

/-- **One column changes**, and with it the cells of its place. -/
theorem HoldsFrom.set (h : HoldsFrom format cells i columns schema) {k : Nat} {c : Column}
    {spec : ColumnSpec} {grown : List Cell} (hspec : schema[k]? = some spec)
    (hc : c.Holds spec format grown) :
    HoldsFrom format (Function.update cells (i + k) grown) i (columns.set k c) schema := by
  induction h generalizing k with
  | nil => cases hspec
  | @cons i c' spec' columns schema hc' hrest ih =>
      cases k with
      | zero =>
          cases hspec
          refine .cons ?_ (hrest.congr ?_)
          · rw [Nat.add_zero, Function.update_self]
            exact hc
          · intro k hk
            rw [Function.update_of_ne (by omega)]
      | succ k =>
          rw [List.set_cons_succ]
          refine .cons ?_ ?_
          · rw [Function.update_of_ne (by omega)]
            exact hc'
          · have hrest' := ih hspec
            rw [Nat.add_right_comm] at hrest'
            exact hrest'

/-! ## (2) New columns, and steps of one column -/

/-- Columns that hold the same cells have the same count of rows. -/
theorem rows_eq {s s' : ColumnSet} (hs : HoldsFrom format cells i s.columns schema)
    (hs' : HoldsFrom format cells i s'.columns schema) : s'.rows = s.rows := by
  have hmap := hs.map_eq (f := Column.rows) hs' fun hc hc' => by rw [hc.rows_eq, hc'.rows_eq]
  rw [rows, rows, ← List.head?_map, ← List.head?_map, hmap]

/-- **New columns** hold no cells. -/
theorem newFrom_spec {choices : Nat → EncodingChoice} {offsets : EncodingChoice}
    {attributes : List Attributes}
    (h : newFrom format choices offsets i schema attributes = .ok columns) :
    HoldsFrom format (fun _ => []) i columns schema := by
  induction schema generalizing i attributes columns with
  | nil =>
      cases h
      exact .nil
  | cons spec schema ih =>
      rw [newFrom] at h
      obtain ⟨c, hc, h⟩ := bind_eq_ok h
      obtain ⟨rest, hrest, h⟩ := bind_eq_ok h
      cases h
      exact .cons (Column.new_spec hc) (ih hrest)

/-- A step of one column, in the cells of all. -/
theorem modify_spec {s s' : ColumnSet} {step : Column → Attempt Column}
    {grow : List Cell → List Cell} (hs : HoldsFrom format cells 0 s.columns schema)
    (hstep : ∀ {c c' spec cells}, c.Holds spec format cells → step c = (.ok (), c') →
      c'.Holds spec format (grow cells))
    (h : s.modify i step = (.ok (), s')) :
    HoldsFrom format (Function.update cells i (grow (cells i))) 0 s'.columns schema := by
  obtain ⟨c, c', hcolumn, hok, hset⟩ := modify_eq_ok h
  obtain ⟨spec, hspec, hc⟩ := hs.get hcolumn
  rw [Nat.zero_add] at hc
  have hset' := hs.set hspec (hstep hc hok)
  rw [Nat.zero_add] at hset'
  rw [hset]
  exact hset'

/-! ## (3) Growth -/

/-- A **step of growth** of a column. -/
inductive Step
  /-- One more value. -/
  | append (value : Bytes)
  /-- One more null row. -/
  | appendNull
  /-- One more value that is stored out of line. -/
  | appendToast (value : Bytes)
  /-- Null rows up to a count. -/
  | setRows (count : Nat)
deriving DecidableEq, Repr, Inhabited

/-- The attempt that a step of growth is. -/
def Step.attempt : Step → Column → Attempt Column
  | append value, c => c.append value
  | appendNull, c => c.appendNull
  | appendToast value, c => c.appendToast value
  | setRows count, c => c.setRows count

/-- The cells after a step of growth. -/
def Step.cellsAfter : Step → List Cell → List Cell
  | append value, cells => cells ++ [.inline value]
  | appendNull, cells => cells ++ [.null]
  | appendToast value, cells => cells ++ [.outside value]
  | setRows count, cells => cells ++ List.replicate (count - cells.length) .null

/-- **Every step of growth** adds its cells. -/
theorem Step.attempt_spec (step : Step) {c c' : Column} {spec : ColumnSpec} {cells : List Cell}
    (hc : c.Holds spec format cells) (h : step.attempt c = (.ok (), c')) :
    c'.Holds spec format (step.cellsAfter cells) := by
  cases step with
  | append value => exact Column.append_spec hc h
  | appendNull => exact Column.appendNull_spec hc h
  | appendToast value => exact Column.appendToast_spec hc h
  | setRows count => exact (Column.setRows_spec hc h).2

/-- **The column sets** that steps of growth lead to, from new columns for a schema on. -/
inductive Built (schema : List ColumnSpec) (format : StorageFormat) : ColumnSet → Prop
  /-- New columns, whatever their encodings. -/
  | new (choices : Nat → EncodingChoice) (offsets : EncodingChoice) (attributes : List Attributes)
      {s : ColumnSet} (h : ColumnSet.new schema format choices offsets attributes = .ok s) :
      Built schema format s
  /-- A successful step of one column. -/
  | grow {s s' : ColumnSet} (hs : Built schema format s) (i : Nat) (step : Step)
      (h : s.modify i step.attempt = (.ok (), s')) : Built schema format s'

/-- **Whatever steps of growth lead to** holds some cells. -/
theorem Built.holds {s : ColumnSet} (h : Built schema format s) :
    ∃ cells, HoldsFrom format cells 0 s.columns schema := by
  induction h with
  | new choices offsets attributes h =>
      obtain ⟨columns, hcolumns, h⟩ := bind_eq_ok h
      cases h
      exact ⟨_, newFrom_spec hcolumns⟩
  | grow hs i step h ih =>
      obtain ⟨cells, hcells⟩ := ih
      exact ⟨_, modify_spec hcells step.attempt_spec h⟩

end ColumnSet

end ColumnFile
