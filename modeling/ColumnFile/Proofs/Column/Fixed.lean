import ColumnFile.Column.Fixed
import ColumnFile.Proofs.Column.Nulls
import ColumnFile.Proofs.Datum.Stored
import ColumnFile.Proofs.Fault

/-! # Columns of fixed width hold their cells

A cell is the stored value of a row, or none for a null row. A column that grows row by row holds
the list of its cells, which says of every field what it is.

* **`FixedColumn.Holds`** — a column that holds some cells; one lemma for each step of growth.
* **`FixedColumn.value_spec`** — the value of a row is its cell.
* **`FixedColumn.ints_spec`**, **`FixedColumn.slotsOfInts_spec`** — the integers of the cells, and
  the slots that they give back.
* **`FixedColumn.ofData_spec`**, **`FixedColumn.ofInts_spec`** — slots or integers give the column
  back. -/

namespace ColumnFile

/-- **A block of equal blocks** is found by its place. -/
theorem block_of_flatten {width : Nat} {blocks : List Bytes} (h : ∀ b ∈ blocks, b.length = width)
    {i : Nat} (hi : i < blocks.length) :
    (blocks.flatten.drop (i * width)).take width = blocks[i] := by
  induction blocks generalizing i with
  | nil => cases hi
  | cons b rest ih =>
      have hb : b.length = width := h b List.mem_cons_self
      cases i with
      | zero => rw [Nat.zero_mul, List.drop_zero, List.flatten_cons, List.take_left' hb,
          List.getElem_cons_zero]
      | succ i =>
          have hdrop : ((b :: rest).flatten).drop ((i + 1) * width) =
            rest.flatten.drop (i * width) := by
            rw [Nat.succ_mul, Nat.add_comm, ← List.drop_drop, List.flatten_cons, List.drop_left' hb]
          rw [hdrop, ih (fun x hx => h x (List.mem_cons_of_mem b hx)) (Nat.lt_of_succ_lt_succ hi),
            List.getElem_cons_succ]

/-- Blocks of one width are as long as their number says. -/
theorem length_flatten_of_forall {width : Nat} {blocks : List Bytes}
    (h : ∀ b ∈ blocks, b.length = width) : blocks.flatten.length = blocks.length * width := by
  induction blocks with
  | nil => exact (Nat.zero_mul width).symm
  | cons b rest ih =>
      rw [List.flatten_cons, List.length_append, h b List.mem_cons_self,
        ih fun x hx => h x (List.mem_cons_of_mem b hx), List.length_cons, Nat.succ_mul,
        Nat.add_comm]

namespace FixedColumn

variable {spec : ColumnSpec} {format : StorageFormat} {c c' : FixedColumn} {v : Bytes}
  {cells : List (Option Bytes)}

/-! ## (1) Cells -/

/-- The octets that a cell takes up in the data. -/
def cellBytes (format : StorageFormat) (width : Nat) : Option Bytes → Bytes
  | some v => v
  | none =>
    match format with
    | .dense => []
    | .padded => List.replicate width 0

/-- **A column holds cells**: its description is the specification's, and its null rows and its data
are those of the cells, each of which has the width of the kind. -/
structure Holds (c : FixedColumn) (spec : ColumnSpec) (format : StorageFormat)
    (cells : List (Option Bytes)) : Prop where
  kind_eq : c.kind = spec.kind
  width_eq : spec.kind.fixedWidth = some c.width
  align_eq : c.align = spec.align
  format_eq : c.format = format
  valid : spec.validAlign = true
  nulls_eq : c.nulls = Nulls.ofMarks (cells.map Option.isSome)
  data_eq : c.data.toList = cells.flatMap (cellBytes format c.width)
  lengths : ∀ v, some v ∈ cells → v.length = c.width

/-- A new column holds no cells. -/
theorem new_spec (h : new spec format = .ok c) : c.Holds spec format [] := by
  unfold new at h
  split at h
  · cases h
  · rename_i width hwidth
    unfold ColumnSpec.checkAlign at h
    split at h
    · rename_i hvalid
      cases h
      exact ⟨rfl, hwidth, rfl, rfl, hvalid, rfl, rfl, by simp⟩
    · cases h

/-- **One more value** is one more cell. -/
theorem append_spec (hc : c.Holds spec format cells) (h : c.append v = (.ok (), c')) :
    c'.Holds spec format (cells ++ [some v]) := by
  unfold append at h
  split at h
  · cases h
  · rename_i hlength
    cases h
    refine ⟨hc.kind_eq, hc.width_eq, hc.align_eq, hc.format_eq, hc.valid, ?_, ?_, ?_⟩
    · show c.nulls.push true = _
      rw [hc.nulls_eq, Nulls.push_ofMarks, List.map_append]
      rfl
    · show (c.data ++ v).toList = _
      rw [Array.toList_appendList, hc.data_eq, List.flatMap_append, List.flatMap_singleton]
      rfl
    · intro w hw
      rcases List.mem_append.mp hw with hw | hw
      · exact hc.lengths w hw
      · cases List.mem_singleton.mp hw
        exact Decidable.not_not.mp hlength

/-- **One more null row** is one more empty cell. -/
theorem appendNull_spec (hc : c.Holds spec format cells) :
    c.appendNull.Holds spec format (cells ++ [none]) := by
  refine ⟨hc.kind_eq, hc.width_eq, hc.align_eq, hc.format_eq, hc.valid, ?_, ?_, ?_⟩
  · show c.nulls.push false = _
    rw [hc.nulls_eq, Nulls.push_ofMarks, List.map_append]
    rfl
  · have hwidth : c.appendNull.width = c.width := rfl
    rw [hwidth, List.flatMap_append, List.flatMap_singleton, ← hc.data_eq, ← hc.format_eq]
    unfold appendNull
    dsimp only
    cases c.format with
    | dense => exact (List.append_nil _).symm
    | padded => exact Array.toList_appendList
  · intro w hw
    rcases List.mem_append.mp hw with hw | hw
    · exact hc.lengths w hw
    · cases List.mem_singleton.mp hw

/-- **Nulls** are behind the cells that were there. -/
theorem appendNulls_spec (n : Nat) (hc : c.Holds spec format cells) :
    (appendNulls n c).Holds spec format (cells ++ List.replicate n none) := by
  induction n generalizing c cells with
  | zero =>
      rw [List.replicate_zero, List.append_nil]
      exact hc
  | succ n ih =>
      have hmore := ih (appendNull_spec hc)
      rw [List.append_assoc] at hmore
      exact hmore

/-! ## (2) Reading -/

/-- The marks of a column's cells. -/
theorem length_marks (cells : List (Option Bytes)) :
    (cells.map Option.isSome).length = cells.length :=
  List.length_map _

/-- The values among cells, in dense storage the whole data. -/
theorem flatMap_dense (width : Nat) (cells : List (Option Bytes)) :
    cells.flatMap (cellBytes .dense width) = (cells.filterMap id).flatten := by
  induction cells with
  | nil => rfl
  | cons cell rest ih =>
      cases cell with
      | none => exact ih
      | some v =>
          rw [List.flatMap_cons, ih]
          rfl

/-- The place of a row's value among the values is the count of values before it. -/
theorem getElem?_filterMap {row : Nat} (h : cells[row]? = some (some v)) :
    (cells.filterMap id)[((cells.map Option.isSome).take row).countP id]? = some v := by
  induction cells generalizing row with
  | nil => cases h
  | cons cell rest ih =>
      cases row with
      | zero =>
          cases h
          rfl
      | succ row =>
          rw [List.getElem?_cons_succ] at h
          rw [List.map_cons, List.take_succ_cons]
          cases cell with
          | none => exact ih h
          | some w =>
              rw [List.countP_cons]
              exact ih h

/-- As many values are there as cells that are not null. -/
theorem length_filterMap (cells : List (Option Bytes)) :
    (cells.filterMap id).length = (cells.map Option.isSome).countP id := by
  induction cells with
  | nil => rfl
  | cons cell rest ih =>
      cases cell with
      | none => exact ih
      | some v =>
          rw [List.map_cons, List.countP_cons, ← ih]
          rfl

/-- The octets of a slot, as a range of the data. -/
theorem slot_eq (c : FixedColumn) (i : Nat) :
    c.slot i = (c.data.toList.drop (i * c.width)).take c.width := by
  rw [slot, Array.toList_extract, List.extract_eq_take_drop, Nat.succ_mul, Nat.add_sub_cancel_left]

/-- In padded storage every slot is the cell of its row. -/
theorem slot_padded (hc : c.Holds spec .padded cells) {row : Nat} (h : row < cells.length) :
    c.slot row = cellBytes .padded c.width cells[row] := by
  have hblocks : ∀ b ∈ cells.map (cellBytes .padded c.width), b.length = c.width := by
    intro b hb
    obtain ⟨cell, hcell, rfl⟩ := List.mem_map.mp hb
    cases cell with
    | none => exact List.length_replicate
    | some w => exact hc.lengths w hcell
  have hblock := block_of_flatten hblocks (i := row) (by rw [List.length_map]; exact h)
  rw [slot_eq, hc.data_eq, List.flatMap_def, hblock, List.getElem_map]

/-- In dense storage every slot is a value. -/
theorem slot_dense (hc : c.Holds spec .dense cells) {i : Nat}
    (h : i < (cells.filterMap id).length) :
    c.slot i = (cells.filterMap id)[i] := by
  have hblocks : ∀ b ∈ cells.filterMap id, b.length = c.width := by
    intro b hb
    obtain ⟨cell, hcell, heq⟩ := List.mem_filterMap.mp hb
    rw [id_eq] at heq
    exact hc.lengths b (heq ▸ hcell)
  rw [slot_eq, hc.data_eq, flatMap_dense, block_of_flatten hblocks h]

/-- **The slot of a row that is not null** holds its value. -/
theorem slot_of_some (hc : c.Holds spec format cells) {row : Nat}
    (h : cells[row]? = some (some v)) :
    c.slot (c.slotOf row) = v := by
  have hrow : row < cells.length := (List.getElem?_eq_some_iff.mp h).1
  have hformat := hc.format_eq
  unfold slotOf
  cases format with
  | padded =>
      have hcell : cells[row] = some v := (List.getElem?_eq_some_iff.mp h).2
      rw [hformat]
      dsimp only
      rw [slot_padded hc hrow, hcell]
      rfl
  | dense =>
      have hplace := getElem?_filterMap h
      obtain ⟨hlt, hvalue⟩ := List.getElem?_eq_some_iff.mp hplace
      rw [hformat]
      dsimp only
      rw [hc.nulls_eq, Nulls.denseIndex_ofMarks (by rw [List.length_map]; exact Nat.le_of_lt hrow),
        slot_dense hc hlt, hvalue]

/-- **The value of a row** is its cell. -/
theorem value_spec (hc : c.Holds spec format cells) {row : Nat} {cell : Option Bytes}
    (h : cells[row]? = some cell) : c.value row = .ok cell := by
  obtain ⟨hrow, hcell⟩ := List.getElem?_eq_some_iff.mp h
  have hmarks : row < (cells.map Option.isSome).length := by rw [List.length_map]; exact hrow
  have hnull : c.nulls.isNull row = !cell.isSome := by
    rw [hc.nulls_eq, Nulls.isNull_ofMarks hmarks, List.getElem_map, hcell]
  have hcheck : c.nulls.checkRow row = .ok () := by
    rw [Nulls.checkRow, hc.nulls_eq, Nulls.rows_ofMarks, if_pos hmarks]
  rw [value, hcheck, ok_bind, hnull]
  cases cell with
  | none => rfl
  | some v =>
      rw [slot_of_some hc h]
      rfl

/-! ## (3) Integers -/

/-- Choosing by marks among the values of a range is choosing among the cells. -/
theorem filter_range_map {f : Nat → Bytes} {p : Nat → Bool}
    (hp : ∀ r, (hr : r < cells.length) → p r = cells[r].isSome)
    (hf : ∀ r v, cells[r]? = some (some v) → f r = v) :
    ((List.range cells.length).filter p).map f = cells.filterMap id := by
  induction cells generalizing f p with
  | nil => rfl
  | cons cell rest ih =>
      have hrest := ih (f := fun r => f (r + 1)) (p := fun r => p (r + 1))
        (fun r hr => hp (r + 1) (Nat.succ_lt_succ hr)) (fun r v h => hf (r + 1) v h)
      have hhead := hp 0 (Nat.succ_pos _)
      rw [List.getElem_cons_zero] at hhead
      have hsucc : (((List.range rest.length).map Nat.succ).filter p).map f =
        rest.filterMap id := by
        rw [List.filter_map, List.map_map]
        exact hrest
      rw [List.length_cons, List.range_succ_eq_map]
      cases cell with
      | none =>
          rw [List.filter_cons_of_neg (by rw [hhead]; exact Bool.false_ne_true), hsucc]
          rfl
      | some v =>
          rw [List.filter_cons_of_pos hhead, List.map_cons, hf 0 v rfl, hsucc]
          rfl

/-- **The integers of a column** are those of its values. -/
theorem ints_spec (hc : c.Holds spec format cells) :
    c.ints = (cells.filterMap id).map Bytes.toInt64 := by
  have hformat := hc.format_eq
  have hslots : c.denseSlots.map c.slot = cells.filterMap id := by
    unfold denseSlots
    cases format with
    | padded =>
        rw [hformat]
        dsimp only
        rw [hc.nulls_eq, Nulls.rows_ofMarks, length_marks]
        refine filter_range_map ?_ ?_
        · intro r hr
          rw [Nulls.isNull_ofMarks (by rw [List.length_map]; exact hr), List.getElem_map,
            Bool.not_not]
        · intro r v h
          obtain ⟨hr, hcell⟩ := List.getElem?_eq_some_iff.mp h
          rw [slot_padded hc hr, hcell]
          rfl
    | dense =>
        rw [hformat]
        dsimp only
        rw [hc.nulls_eq, Nulls.nonNull_ofMarks, ← length_filterMap]
        apply List.ext_getElem
        · rw [List.length_map, List.length_range]
        · intro i h₁ h₂
          rw [List.getElem_map, List.getElem_range, slot_dense hc h₂]
  rw [ints, ← hslots, List.map_map]
  rfl

/-- **Slots from integers**: the integers of the values and the marks of the rows give the data
back. -/
theorem slotsOfInts_spec {width : Nat} (hwidth : width ≤ 8)
    (hlengths : ∀ v, some v ∈ cells → v.length = width) :
    slotsOfInts format width (cells.map Option.isSome) ((cells.filterMap id).map Bytes.toInt64) =
      cells.flatMap (cellBytes format width) := by
  induction cells with
  | nil => rfl
  | cons cell rest ih =>
      have hrest := ih fun v hv => hlengths v (List.mem_cons_of_mem cell hv)
      cases cell with
      | none =>
          show slotsOfInts format width (false :: rest.map Option.isSome)
            ((rest.filterMap id).map Bytes.toInt64) = _
          rw [List.flatMap_cons, ← hrest]
          cases format <;> rfl
      | some v =>
          have hv : v.length = width := hlengths v List.mem_cons_self
          have hback : Bytes.ofInt64 v.length v.toInt64 = v := Bytes.ofInt64_toInt64 (by omega)
          show slotsOfInts format width (true :: rest.map Option.isSome)
            (v.toInt64 :: (rest.filterMap id).map Bytes.toInt64) = _
          rw [slotsOfInts, List.flatMap_cons, hrest, ← hv, hback]
          rfl

/-! ## (4) Rebuilding -/

/-- The data of a column has a slot for each row that its storage gives one. -/
theorem length_data (hc : c.Holds spec format cells) :
    c.data.toList.length = slots format c.nulls * c.width := by
  rw [hc.data_eq, hc.nulls_eq]
  unfold slots
  cases format with
  | padded =>
      have hblocks : ∀ b ∈ cells.map (cellBytes .padded c.width), b.length = c.width := by
        intro b hb
        obtain ⟨cell, hcell, rfl⟩ := List.mem_map.mp hb
        cases cell with
        | none => exact List.length_replicate
        | some w => exact hc.lengths w hcell
      rw [List.flatMap_def, length_flatten_of_forall hblocks, List.length_map]
      dsimp only
      rw [Nulls.rows_ofMarks, List.length_map]
  | dense =>
      have hblocks : ∀ b ∈ cells.filterMap id, b.length = c.width := by
        intro b hb
        obtain ⟨cell, hcell, heq⟩ := List.mem_filterMap.mp hb
        rw [id_eq] at heq
        exact hc.lengths b (heq ▸ hcell)
      rw [flatMap_dense, length_flatten_of_forall hblocks, length_filterMap]
      rfl

/-- **The slots of a column** give it back. -/
theorem ofData_spec (hc : c.Holds spec format cells) :
    ofData spec format c.data.toList c.nulls = .ok c := by
  have hlength := length_data hc
  have hkind := hc.kind_eq
  have halign := hc.align_eq
  have hformat := hc.format_eq
  rw [ofData, new, hc.width_eq]
  dsimp only
  rw [ColumnSpec.checkAlign, if_pos hc.valid, ok_bind]
  show (Except.ok _ >>= _) = _
  rw [ok_bind]
  dsimp only
  rw [if_neg (by rw [hlength]; exact fun h => h rfl)]
  obtain ⟨kind, width, align, format', data, nulls⟩ := c
  dsimp only at hkind halign hformat ⊢
  rw [hkind, halign, hformat]
  rfl

/-- No kind is wider than eight octets. -/
theorem fixedWidth_le {kind : Kind} {width : Nat} (h : kind.fixedWidth = some width) :
    width ≤ 8 := by
  have hall : ∀ w ∈ kind.fixedWidth, w ≤ 8 := by cases kind <;> decide
  exact hall width h

/-- **The integers of a column** give it back. -/
theorem ofInts_spec (hc : c.Holds spec format cells) :
    ofInts spec format c.ints c.nulls = .ok c := by
  have hcount : c.ints.length = c.nulls.nonNull := by
    rw [ints_spec hc, List.length_map, length_filterMap, hc.nulls_eq, Nulls.nonNull_ofMarks]
  have hmarks : (List.range c.nulls.rows).map (fun r => !c.nulls.isNull r) =
      cells.map Option.isSome := by
    rw [hc.nulls_eq, Nulls.rows_ofMarks]
    apply List.ext_getElem
    · rw [List.length_map, List.length_range]
    · intro i h₁ h₂
      rw [List.getElem_map, List.getElem_range, Nulls.isNull_ofMarks h₂, Bool.not_not]
  rw [ofInts, if_neg (by rw [hcount]; exact fun h => h rfl)]
  dsimp only
  rw [hmarks, hc.width_eq, Option.getD_some, ints_spec hc,
    slotsOfInts_spec (fixedWidth_le hc.width_eq) hc.lengths, ← hc.data_eq]
  exact ofData_spec hc

end FixedColumn

end ColumnFile
