import ColumnFile.Message.Schema
import ColumnFile.Proofs.MessagePack.Shape

/-! # Schemas read back from messages

* **`ColumnSpec.fits`**, **`ColumnEncoding.fits`** — records whose numbers and names are within
  bounds.
* **`Attributes.fits`** — attributes in the order of their names. -/

namespace ColumnFile

open MessagePack (Fields Shape Value)

/-! ## (1) Names -/

/-- A kind fits into its message. -/
theorem Kind.fits (k : Kind) : Kind.shape.Fits 0 k := by
  refine Shape.choice_fits ?_ ?_ ?_
  · cases k <;> decide
  · cases k <;> decide
  · cases k <;> decide

/-- A format fits into its message. -/
theorem StorageFormat.fits (f : StorageFormat) : StorageFormat.shape.Fits 0 f := by
  refine Shape.choice_fits ?_ ?_ ?_
  · cases f <;> decide
  · cases f <;> decide
  · cases f <;> decide

/-- An encoding fits into its message. -/
theorem Encoding.fits (e : Encoding) : Encoding.shape.Fits 0 e := by
  refine Shape.choice_fits ?_ ?_ ?_
  · cases e <;> decide
  · cases e <;> decide
  · cases e <;> decide

/-! ## (2) Columns -/

/-- **A column whose name and alignment** are within the bounds of a message. -/
structure ColumnSpec.Sized (c : ColumnSpec) : Prop where
  name : (Bytes.ofString c.name).length < 2 ^ 32
  align : c.align < 2 ^ 64

/-- **A column** reads back. -/
theorem ColumnSpec.fits {c : ColumnSpec} (h : c.Sized) : ColumnSpec.shape.Fits 1 c := by
  have hname := Shape.text_fits h.name
  have hkind := Kind.fits c.kind
  have halign := Shape.nat_fits (by decide) h.align
  refine Shape.record_fits (by decide) (by decide) (by decide) rfl ?_ ?_
  · simp [hname.sized, hkind.sized, halign.sized]
  · intro levels hlevels
    simp [Fields.get, List.lookup_cons, hname.reads levels hlevels, hkind.reads levels hlevels,
      halign.reads levels hlevels]

/-- **The encodings of a column** whose lengths are within the bounds of a message. -/
structure ColumnEncoding.Sized (e : ColumnEncoding) : Prop where
  length : e.length < 2 ^ 64
  offsetsLength : e.offsetsLength < 2 ^ 64

/-- **The encodings of a column** read back. -/
theorem ColumnEncoding.fits {e : ColumnEncoding} (h : e.Sized) : ColumnEncoding.shape.Fits 1 e := by
  have hkind := Encoding.fits e.data.kind
  have hlevel := Shape.int32_fits e.data.level
  have hlength := Shape.nat_fits (by decide) h.length
  have hoffsetsKind := Encoding.fits e.offsets.kind
  have hoffsetsLevel := Shape.int32_fits e.offsets.level
  have hoffsetsLength := Shape.nat_fits (by decide) h.offsetsLength
  refine Shape.record_fits (by decide) (by decide) (by decide) rfl ?_ ?_
  · simp [hkind.sized, hlevel.sized, hlength.sized, hoffsetsKind.sized, hoffsetsLevel.sized,
      hoffsetsLength.sized]
  · intro levels hlevels
    simp [Fields.get, List.lookup_cons, hkind.reads levels hlevels, hlevel.reads levels hlevels,
      hlength.reads levels hlevels, hoffsetsKind.reads levels hlevels,
      hoffsetsLevel.reads levels hlevels, hoffsetsLength.reads levels hlevels]

/-! ## (3) Attributes -/

namespace Attributes

/-- The names of attributes **ascend**. -/
def Ascending (a : Attributes) : Prop := a.Pairwise fun p q => p.1 < q.1

/-- A name behind all others is put behind them. -/
theorem put_of_lt {a : Attributes} {name value : String} (h : ∀ p ∈ a, p.1 < name) :
    a.put name value = a ++ [(name, value)] := by
  induction a with
  | nil => rfl
  | cons p rest ih =>
      obtain ⟨n, v⟩ := p
      have hlt : n < name := h (n, v) List.mem_cons_self
      have hne : ¬ name = n := by
        rintro rfl
        exact String.lt_irrefl _ hlt
      have hnot : ¬ name < n := fun hback => String.lt_irrefl _ (String.lt_trans hlt hback)
      rw [put, if_neg hne, if_neg hnot, ih fun p hp => h p (List.mem_cons_of_mem _ hp)]
      rfl

/-- **Attributes** within the bounds of a message. -/
structure Sized (a : Attributes) : Prop where
  ascending : a.Ascending
  count : a.length < 2 ^ 32
  names : ∀ p ∈ a, (Bytes.ofString p.1).length < 2 ^ 32
  values : ∀ p ∈ a, (Bytes.ofString p.2).length < 2 ^ 32

/-- The entries of attributes, read one after another, are put behind those before them. -/
theorem foldlM_put (front : Attributes) {a : Attributes} (levels : Nat)
    (h : (front ++ a).Pairwise fun p q => p.1 < q.1) :
    (a.map fun p => (Value.text (Bytes.ofString p.1), Shape.text.write p.2)).foldlM
        (fun acc e => do return put (← e.1.toText?) (← Shape.text.read levels e.2) acc) front =
      some (front ++ a) := by
  induction a generalizing front with
  | nil => simp
  | cons p rest ih =>
      obtain ⟨name, value⟩ := p
      have hlast : ∀ p ∈ front, p.1 < name := by
        intro p hp
        exact (List.pairwise_append.mp h).2.2 p hp (name, value) List.mem_cons_self
      have hnext : ((front ++ [(name, value)]) ++ rest).Pairwise fun p q => p.1 < q.1 := by
        rw [List.append_assoc]
        exact h
      have hname : (Value.text (Bytes.ofString name)).toText? = some name :=
        Bytes.toString?_ofString name
      have hvalue : Shape.text.read levels (Shape.text.write value) = some value :=
        Bytes.toString?_ofString value
      have hrest := ih _ hnext
      rw [List.append_assoc] at hrest
      simp [hname, hvalue, put_of_lt hlast]
      exact hrest

/-- **Attributes** read back. -/
theorem fits {a : Attributes} (h : a.Sized) : Attributes.shape.Fits 1 a := by
  constructor
  · refine .map ?_ ?_ ?_
    · simpa using h.count
    · intro e he
      obtain ⟨q, hq, rfl⟩ := List.mem_map.mp he
      obtain ⟨p, hp, rfl⟩ := List.mem_map.mp hq
      exact .text (h.names p hp)
    · intro e he
      obtain ⟨q, hq, rfl⟩ := List.mem_map.mp he
      obtain ⟨p, hp, rfl⟩ := List.mem_map.mp hq
      exact .text (h.values p hp)
  · intro levels hlevels
    cases levels with
    | zero => cases hlevels
    | succ levels =>
        have hread := foldlM_put [] levels h.ascending
        rw [List.nil_append] at hread
        show (((a.map fun p => (p.1, Shape.text.write p.2)).map fun p =>
          (Value.text (Bytes.ofString p.1), p.2)).foldlM _ []) = some a
        rw [List.map_map]
        exact hread

end Attributes

end ColumnFile
