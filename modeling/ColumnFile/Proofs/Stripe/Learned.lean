import ColumnFile.Proofs.Message.Schema
import ColumnFile.Proofs.Stripe.RoundTrip

/-! # What columns learn

The attributes that columns hand on from stripe to stripe: nothing, or that a dictionary did not
pay.

* **`Attributes.Learned`** — attributes that a column can have; they fit a message.
* **`Column.encodeData_learned`** — encoding a column teaches it nothing else.
* **`ColumnSet.serialize_learned`**, **`ColumnSet.new_learned`** — the same for the columns of
  stripes. -/

namespace ColumnFile

/-! ## (1) Attributes -/

/-- **What a column can learn**: that a dictionary did not pay. -/
def Attributes.Learned (a : Attributes) : Prop :=
  a = [] ∨ a = [(Column.fallbackAttribute, Column.fallback.kind.label)]

/-- What a column can learn fits a message. -/
theorem Attributes.Learned.sized {a : Attributes} (h : a.Learned) : a.Sized := by
  rcases h with rfl | rfl
  · refine ⟨.nil, by decide, ?_, ?_⟩
    · intro p hp
      cases hp
    · intro p hp
      cases hp
  · refine ⟨List.pairwise_singleton _ _, by decide, ?_, ?_⟩
    · intro p hp
      rw [List.mem_singleton.mp hp]
      decide
    · intro p hp
      rw [List.mem_singleton.mp hp]
      decide

/-- Learning it once more changes nothing. -/
theorem Attributes.Learned.put {a : Attributes} (h : a.Learned) :
    (a.put Column.fallbackAttribute Column.fallback.kind.label).Learned := by
  rcases h with rfl | rfl
  · exact .inr rfl
  · exact .inr rfl

namespace Column

variable {c c' : Column}

/-! ## (2) Columns -/

/-- A new column has the attributes that it is given. -/
theorem attributes_new {spec : ColumnSpec} {format : StorageFormat}
    {choice offsets : EncodingChoice} {attributes : Attributes}
    (h : new spec format choice offsets attributes = .ok c) :
    c.attributes = attributes := by
  unfold new at h
  obtain ⟨-, -, h⟩ := bind_eq_ok h
  split at h
  · obtain ⟨rows, -, h⟩ := bind_eq_ok h
    cases h
    rfl
  · obtain ⟨rows, -, h⟩ := bind_eq_ok h
    split at h
    · cases h
      rfl
    · cases h
      rfl

/-- **Growth** teaches a column nothing. -/
theorem attributes_append (c : Column) (v : Bytes) : (c.append v).2.attributes = c.attributes := by
  cases c with
  | fixed rows stage learned => rw [append, attributes, attributes]
  | varying rows stage offsetsStage learned => rw [append, changeVarying, attributes, attributes]

/-- A null leaves attributes as they are. -/
theorem attributes_appendNull (c : Column) : c.appendNull.2.attributes = c.attributes := by
  cases c with
  | fixed rows stage learned => rw [appendNull, attributes, attributes]
  | varying rows stage offsetsStage learned =>
    rw [appendNull, changeVarying, attributes, attributes]

/-- A value out of line leaves attributes as they are. -/
theorem attributes_appendToast (c : Column) (v : Bytes) :
    (c.appendToast v).2.attributes = c.attributes := by
  cases c with
  | fixed rows stage learned => rw [appendToast]
  | varying rows stage offsetsStage learned =>
    rw [appendToast, changeVarying, attributes, attributes]

variable [BlockLibrary]

/-- **Encoding** teaches a column at most that a dictionary did not pay. -/
theorem encodeData_learned (h : c.attributes.Learned) : c.encodeData.2.attributes.Learned := by
  cases c with
  | fixed rows stage attributes => exact h
  | varying rows stage offsetsStage attributes =>
      show (settle rows stage attributes).2.Learned
      unfold settle
      split
      · exact Attributes.Learned.put h
      · exact h

/-- Offsets that are encoded leave attributes as they are. -/
theorem attributes_encodeOffsets (c : Column) : c.encodeOffsets.2.attributes = c.attributes := by
  cases c <;> rfl

end Column

/-! ## (3) Column sets -/

namespace ColumnSet

variable {columns columns' : List Column} {i : Nat}

/-- **New columns** have learned what those before them had. -/
theorem newFrom_learned {format : StorageFormat} {choices : Nat → EncodingChoice}
    {offsets : EncodingChoice} {schema : List ColumnSpec} {attributes : List Attributes}
    (hattributes : ∀ a ∈ attributes, a.Learned)
    (h : newFrom format choices offsets i schema attributes = .ok columns) :
    ∀ c ∈ columns, c.attributes.Learned := by
  induction schema generalizing i attributes columns with
  | nil =>
      cases h
      intro c hc
      cases hc
  | cons spec schema ih =>
      rw [newFrom] at h
      obtain ⟨first, hfirst, h⟩ := bind_eq_ok h
      obtain ⟨rest, hrest, h⟩ := bind_eq_ok h
      cases h
      intro c hc
      rcases List.mem_cons.mp hc with rfl | hc
      · rw [Column.attributes_new hfirst]
        cases attributes with
        | nil => exact .inl rfl
        | cons a attributes => exact hattributes a List.mem_cons_self
      · exact ih (fun a ha => hattributes a (List.mem_of_mem_tail ha)) hrest c hc

variable [BlockLibrary]

/-- **Columns that were serialized** have learned at most that dictionaries did not pay. -/
theorem serializeFrom_learned {image image' : StripeImage}
    (hcolumns : ∀ c ∈ columns, c.attributes.Learned)
    (h : serializeFrom i image columns = (.ok image', columns')) :
    ∀ c ∈ columns', c.attributes.Learned := by
  induction columns generalizing i image columns' with
  | nil =>
      cases h
      exact hcolumns
  | cons first rest ih =>
      obtain ⟨between, first', rest', hfirst, hothers, rfl⟩ := serializeFrom_cons h
      obtain ⟨data, offsets, c₁, hdata, hoffsets⟩ := Column.serialize_eq_ok hfirst
      have hlearned := Column.encodeData_learned (hcolumns first List.mem_cons_self)
      rw [hdata] at hlearned
      have hkept := Column.attributes_encodeOffsets c₁
      rw [hoffsets] at hkept
      intro c hc
      rcases List.mem_cons.mp hc with rfl | hc
      · rw [hkept]
        exact hlearned
      · exact ih (fun c hc => hcolumns c (List.mem_cons_of_mem _ hc)) hothers c hc

end ColumnSet

end ColumnFile
