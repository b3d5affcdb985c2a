import ColumnFile.Column.Variable
import ColumnFile.Proofs.Column.Nulls
import ColumnFile.Proofs.Fault
import ColumnFile.Proofs.Integer.Bits

/-! # Columns of variable length hold their cells

A cell is null, a value that is stored in its row, or a value that is stored out of line and leaves
a reference in its row. What the rows store and what is stored out of line are both lists that the
cells determine, and a column that grows row by row holds its cells in this sense.

* **`Cell`** — a cell; `storedFrom` and `externalOf` are what cells store in their rows and out of
  line.
* **`boundsFrom`** — where the rows begin and the last one ends.
* **`VariableColumn.Holds`** — a column that holds some cells; one lemma for each step of growth.
* **`VariableColumn.value_spec`**, **`VariableColumn.values_spec`** — reading rows.
* **`VariableColumn.ofData_spec`** — the streams of a column give it back, less what is out of
  line. -/

namespace ColumnFile

/-! ## (1) Cells -/

/-- A **cell** of a column. -/
inductive Cell
  /-- A null row. -/
  | null
  /-- A value that is stored in its row. -/
  | inline (value : Bytes)
  /-- A value that is stored out of line. -/
  | outside (value : Bytes)
deriving DecidableEq

namespace Cell

/-- Whether the row is not null. -/
def notNull : Cell → Bool
  | null => false
  | _ => true

/-- Whether the value is stored out of line. -/
def isOutside : Cell → Bool
  | outside _ => true
  | _ => false

/-- The value, if there is one. -/
def value? : Cell → Option Bytes
  | null => none
  | inline v => some v
  | outside v => some v

/-- What is stored out of line. -/
def external : Cell → Bytes
  | outside v => v
  | _ => []

/-- What the row stores, when `base` octets are stored out of line before it. -/
def stored (base : Nat) : Cell → Bytes
  | null => []
  | inline v => v
  | outside v => ToastRef.encode { offset := UInt64.ofNat base, length := UInt64.ofNat v.length }

end Cell

/-- **What cells store out of line**, joined. -/
def externalOf (cells : List Cell) : Bytes := cells.flatMap Cell.external

/-- **What cells store in their rows**, when `base` octets are stored out of line before them. -/
def storedFrom (base : Nat) : List Cell → List Bytes
  | [] => []
  | cell :: rest => cell.stored base :: storedFrom (base + cell.external.length) rest

@[simp] theorem length_storedFrom (base : Nat) (cells : List Cell) :
    (storedFrom base cells).length = cells.length := by
  induction cells generalizing base with
  | nil => rfl
  | cons cell rest ih => rw [storedFrom, List.length_cons, ih, List.length_cons]

/-- One more cell stores its row behind the others. -/
theorem storedFrom_append (base : Nat) (cells : List Cell) (cell : Cell) :
    storedFrom base (cells ++ [cell]) =
      storedFrom base cells ++ [cell.stored (base + (externalOf cells).length)] := by
  induction cells generalizing base with
  | nil => rfl
  | cons hd rest ih =>
      rw [List.cons_append, storedFrom, storedFrom, ih, List.cons_append, externalOf, externalOf,
        List.flatMap_cons, List.length_append, Nat.add_assoc]

/-- A row stores what its cell stores behind what lies out of line before it. -/
theorem getElem?_storedFrom {base row : Nat} {cells : List Cell} {cell : Cell}
    (h : cells[row]? = some cell) : (storedFrom base cells)[row]? =
      some (cell.stored (base + (externalOf (cells.take row)).length)) := by
  induction cells generalizing base row with
  | nil => cases h
  | cons hd rest ih =>
      cases row with
      | zero =>
          cases h
          rfl
      | succ row =>
          rw [List.getElem?_cons_succ] at h
          rw [storedFrom, List.getElem?_cons_succ, ih h, List.take_succ_cons, externalOf,
            externalOf, List.flatMap_cons, List.length_append, Nat.add_assoc]

/-! ## (2) Bounds of rows -/

/-- **Where blocks begin**, the first at `start`, and where the last one ends. -/
def boundsFrom (start : Nat) : List Bytes → List Nat
  | [] => [start]
  | b :: rest => start :: boundsFrom (start + b.length) rest

@[simp] theorem length_boundsFrom (start : Nat) (blocks : List Bytes) :
    (boundsFrom start blocks).length = blocks.length + 1 := by
  induction blocks generalizing start with
  | nil => rfl
  | cons b rest ih => rw [boundsFrom, List.length_cons, ih, List.length_cons]

/-- One more block ends at one more bound. -/
theorem boundsFrom_append (start : Nat) (blocks : List Bytes) (b : Bytes) :
    boundsFrom start (blocks ++ [b]) =
      boundsFrom start blocks ++ [start + (blocks ++ [b]).flatten.length] := by
  induction blocks generalizing start with
  | nil =>
      rw [List.nil_append, boundsFrom, boundsFrom, boundsFrom, List.flatten_singleton]
      rfl
  | cons hd rest ih =>
      rw [List.cons_append, boundsFrom, boundsFrom, ih, List.cons_append, List.flatten_cons,
        List.length_append, Nat.add_assoc]

/-- A bound is the start and the octets of the blocks before it. -/
theorem getElem?_boundsFrom {start i : Nat} {blocks : List Bytes} (h : i ≤ blocks.length) :
    (boundsFrom start blocks)[i]? = some (start + (blocks.take i).flatten.length) := by
  induction blocks generalizing start i with
  | nil =>
      have hi : i = 0 := Nat.le_zero.mp h
      rw [hi]
      rfl
  | cons b rest ih =>
      cases i with
      | zero => rfl
      | succ i =>
          rw [boundsFrom, List.getElem?_cons_succ, ih (Nat.le_of_succ_le_succ h),
            List.take_succ_cons, List.flatten_cons, List.length_append, Nat.add_assoc]

/-- The last bound is behind all blocks. -/
theorem getLastD_boundsFrom (start : Nat) (blocks : List Bytes) (d : Nat) :
    (boundsFrom start blocks).getLastD d = start + blocks.flatten.length := by
  induction blocks generalizing start d with
  | nil => rfl
  | cons b rest ih =>
      rw [boundsFrom, List.getLastD_cons, ih, List.flatten_cons, List.length_append, Nat.add_assoc]

/-- No bound is past the end. -/
theorem le_of_mem_boundsFrom {start x : Nat} {blocks : List Bytes}
    (h : x ∈ boundsFrom start blocks) :
    x ≤ start + blocks.flatten.length := by
  induction blocks generalizing start with
  | nil =>
      rw [boundsFrom, List.mem_singleton] at h
      rw [h]
      exact Nat.le_refl _
  | cons b rest ih =>
      rw [List.flatten_cons, List.length_append]
      rcases List.mem_cons.mp h with rfl | h
      · exact Nat.le_add_right _ _
      · have hle := ih h
        omega

/-- **A block** is what lies between its bounds. -/
theorem block_of_bounds {blocks : List Bytes} {i : Nat} {b : Bytes} (h : blocks[i]? = some b) :
    (blocks.flatten.drop (blocks.take i).flatten.length).take b.length = b := by
  induction blocks generalizing i with
  | nil => cases h
  | cons hd rest ih =>
      cases i with
      | zero =>
          cases h
          rw [List.take_zero, List.flatten_nil, List.length_nil, List.drop_zero, List.flatten_cons,
            List.take_left' rfl]
      | succ i =>
          rw [List.getElem?_cons_succ] at h
          rw [List.take_succ_cons, List.flatten_cons, List.flatten_cons, List.length_append,
            ← List.drop_drop, List.drop_left' rfl, ih h]

namespace VariableColumn

variable {spec : ColumnSpec} {format : StorageFormat} {c c' : VariableColumn} {v : Bytes}
  {cells : List Cell}

/-! ## (3) Growth -/

/-- The rows that hold references, marked in a bitmap if there are some. -/
def toastOf (cells : List Cell) : Option Bitmap :=
  if cells.any Cell.isOutside then some (Bitmap.ofList (cells.map Cell.isOutside)) else none

/-- **A column holds cells**: its description is the specification's, and its fields are those of
the cells, whose rows take less than what an offset can count. -/
structure Holds (c : VariableColumn) (spec : ColumnSpec) (format : StorageFormat)
    (cells : List Cell) :
    Prop where
  kind_eq : c.kind = spec.kind
  width_eq : spec.kind.fixedWidth = none
  align_eq : c.align = spec.align
  format_eq : c.format = format
  valid : spec.validAlign = true
  nulls_eq : c.nulls = Nulls.ofMarks (cells.map Cell.notNull)
  data_eq : c.data.toList = (storedFrom 0 cells).flatten
  offsets_eq : c.offsets.toList = (boundsFrom 0 (storedFrom 0 cells)).map UInt32.ofNat
  small : c.data.toList.length < 2 ^ 32
  toast_eq : c.toast = toastOf cells
  external_eq : c.external.toList = externalOf cells

/-- A new column holds no cells. -/
theorem new_spec (h : new spec format = .ok c) : c.Holds spec format [] := by
  unfold new at h
  split at h
  · cases h
  · rename_i hwidth
    rw [Option.not_isSome_iff_eq_none] at hwidth
    unfold ColumnSpec.checkAlign at h
    split at h
    · rename_i hvalid
      cases h
      exact ⟨rfl, hwidth, rfl, rfl, hvalid, rfl, rfl, rfl, Nat.two_pow_pos 32, rfl, rfl⟩
    · cases h

/-- One more mark for a row that may hold a reference. -/
theorem toastOf_append (cells : List Cell) (cell : Cell) :
    toastOf (cells ++ [cell]) =
      match toastOf cells with
      | some b => some (b.push cell.isOutside)
      | none =>
        if cell.isOutside then some ((Bitmap.filled cells.length false).push true) else none := by
  have hany : (cells ++ [cell]).any Cell.isOutside =
    (cells.any Cell.isOutside || cell.isOutside) := by
    rw [List.any_append, List.any_cons, List.any_nil, Bool.or_false]
  have hmarks : (cells ++ [cell]).map Cell.isOutside = cells.map Cell.isOutside ++
    [cell.isOutside] := by
    rw [List.map_append]
    rfl
  unfold toastOf
  rw [hany, hmarks]
  -- either some value was already out of line, or the new one is the first, or there is none
  cases hcells : cells.any Cell.isOutside with
  | true =>
      rw [Bool.true_or, if_pos rfl, if_pos rfl]
      dsimp only
      rw [Bitmap.push_ofList]
  | false =>
      rw [Bool.false_or, if_neg Bool.false_ne_true]
      dsimp only
      cases hcell : cell.isOutside with
      | false => rfl
      | true =>
          have hnone : cells.map Cell.isOutside = List.replicate cells.length false := by
            rw [List.eq_replicate_iff]
            refine ⟨List.length_map _, ?_⟩
            intro b hb
            obtain ⟨x, hx, rfl⟩ := List.mem_map.mp hb
            exact Bool.eq_false_iff.mpr (List.any_eq_false.mp hcells x hx)
          rw [if_pos rfl, if_pos rfl, Bitmap.filled_eq, Bitmap.push_ofList, hnone]

/-- **Ending a row**: a column whose data and out-of-line values were extended by what one more cell
stores, holds that cell. -/
theorem endRow_spec (grown : VariableColumn) (cell : Cell) (hc : c.Holds spec format cells)
    (hsame : grown = { c with data := grown.data, external := grown.external })
    (hdata : grown.data.toList = c.data.toList ++ cell.stored (externalOf cells).length)
    (hexternal : grown.external.toList = c.external.toList ++ cell.external)
    (h : grown.endRow cell.notNull cell.isOutside = (.ok (), c')) :
    c'.Holds spec format (cells ++ [cell]) := by
  have hstored : storedFrom 0 (cells ++ [cell]) =
      storedFrom 0 cells ++ [cell.stored (externalOf cells).length] := by
    rw [storedFrom_append, Nat.zero_add]
  have hgrown : grown.data.toList = (storedFrom 0 (cells ++ [cell])).flatten := by
    rw [hdata, hc.data_eq, hstored, List.flatten_append, List.flatten_singleton]
  unfold endRow at h
  split at h
  · cases h
  · rename_i hsmall
    have hsize : grown.data.size = grown.data.toList.length := Rope.size_eq _
    cases h
    rw [hsame]
    refine ⟨hc.kind_eq, hc.width_eq, hc.align_eq, hc.format_eq, hc.valid, ?_, hgrown, ?_,
      ?_, ?_, ?_⟩
    · show c.nulls.push cell.notNull = _
      rw [hc.nulls_eq, Nulls.push_ofMarks, List.map_append]
      rfl
    · show (c.offsets.push (UInt32.ofNat grown.data.size)).toList = _
      rw [Array.toList_push, hc.offsets_eq, hstored, boundsFrom_append, List.map_append, ← hstored,
        ← hgrown, hsize, Nat.zero_add]
      rfl
    · show grown.data.toList.length < 2 ^ 32
      omega
    · rw [toastOf_append, ← hc.toast_eq]
      show (match c.toast with
        | some b => some (b.push cell.isOutside)
        | none => if cell.isOutside then some ((Bitmap.filled c.nulls.rows false).push true)
            else none) =
          _
      rw [hc.nulls_eq, Nulls.rows_ofMarks, List.length_map]
    · show grown.external.toList = _
      rw [hexternal, hc.external_eq, externalOf, externalOf, List.flatMap_append,
        List.flatMap_singleton]

/-- **One more value** is one more cell. -/
theorem append_spec (hc : c.Holds spec format cells) (h : c.append v = (.ok (), c')) :
    c'.Holds spec format (cells ++ [.inline v]) := by
  refine endRow_spec { c with data := c.data ++ v } (.inline v) hc rfl ?_ ?_ h
  · exact Rope.toList_append _ _
  · exact (List.append_nil _).symm

/-- **One more null row** is one more empty cell. -/
theorem appendNull_spec (hc : c.Holds spec format cells) (h : c.appendNull = (.ok (), c')) :
    c'.Holds spec format (cells ++ [.null]) := by
  refine endRow_spec c .null hc rfl ?_ ?_ h
  · exact (List.append_nil _).symm
  · exact (List.append_nil _).symm

/-- **One more value out of line** is one more cell that is stored there. -/
theorem appendToast_spec (hc : c.Holds spec format cells) (h : c.appendToast v = (.ok (), c')) :
    c'.Holds spec format (cells ++ [.outside v]) := by
  have hsize : c.external.size = (externalOf cells).length := by
    rw [← hc.external_eq]
    rfl
  unfold appendToast at h
  dsimp only at h
  rw [hsize] at h
  refine endRow_spec _ (.outside v) hc rfl ?_ ?_ h
  · exact Rope.toList_append _ _
  · exact Array.toList_appendList

/-- **Nulls** are behind the cells that were there. -/
theorem appendNulls_spec {n : Nat} (hc : c.Holds spec format cells)
    (h : appendNulls n c = (.ok (), c')) :
    c'.Holds spec format (cells ++ List.replicate n .null) := by
  induction n generalizing c cells with
  | zero =>
      cases h
      rw [List.replicate_zero, List.append_nil]
      exact hc
  | succ n ih =>
      rw [appendNulls] at h
      split at h
      · rename_i c₁ hnull
        have hmore := ih (appendNull_spec hc hnull) h
        rw [List.append_assoc] at hmore
        exact hmore
      · cases h

/-! ## (4) Reading -/

/-- No bound is past what an offset can count. -/
theorem boundsFrom_small (hc : c.Holds spec format cells) {x : Nat}
    (h : x ∈ boundsFrom 0 (storedFrom 0 cells)) : x < UInt32.size := by
  have hle := le_of_mem_boundsFrom h
  have hsmall := hc.small
  rw [hc.data_eq] at hsmall
  show x < 2 ^ 32
  omega

/-- **An offset** is where its row begins. -/
theorem offset_spec (hc : c.Holds spec format cells) {i : Nat} (h : i ≤ cells.length) :
    c.offset i = ((storedFrom 0 cells).take i).flatten.length := by
  have hbound : (boundsFrom 0 (storedFrom 0 cells))[i]? =
      some (0 + ((storedFrom 0 cells).take i).flatten.length) :=
    getElem?_boundsFrom (by rw [length_storedFrom]; exact h)
  rw [Nat.zero_add] at hbound
  have hsmall := boundsFrom_small hc (List.mem_of_getElem? hbound)
  rw [offset, Array.getD_eq_getD_getElem?, ← Array.getElem?_toList, hc.offsets_eq,
    List.getElem?_map, hbound, Option.map_some, Option.getD_some, UInt32.toNat_ofNat_of_lt' hsmall]

/-- The octets of a range are those of the data between its offsets. -/
theorem span_eq (c : VariableColumn) (first last : Nat) :
    c.span first last = (c.data.toList.drop (c.offset first)).take
      (c.offset last - c.offset first) := by
  rw [span, Rope.extract_eq, List.extract_eq_take_drop]

/-- **The octets of a row** are what its cell stores. -/
theorem span_spec (hc : c.Holds spec format cells) {row : Nat} {cell : Cell}
    (h : cells[row]? = some cell) :
    c.span row (row + 1) = cell.stored (externalOf (cells.take row)).length := by
  have hrow : row < cells.length := (List.getElem?_eq_some_iff.mp h).1
  have hstored : (storedFrom 0 cells)[row]? =
      some (cell.stored (0 + (externalOf (cells.take row)).length)) := getElem?_storedFrom h
  rw [Nat.zero_add] at hstored
  generalize cell.stored (externalOf (cells.take row)).length = b at hstored
  have hnext : ((storedFrom 0 cells).take (row + 1)).flatten.length =
      ((storedFrom 0 cells).take row).flatten.length + b.length := by
    rw [List.take_add_one, hstored, List.flatten_append, List.length_append]
    simp
  rw [span_eq, offset_spec hc (Nat.le_of_lt hrow), offset_spec hc hrow, hnext,
    Nat.add_sub_cancel_left, hc.data_eq]
  exact block_of_bounds hstored

/-- Whether a row is null, as its cell says. -/
theorem isNull_spec (hc : c.Holds spec format cells) {row : Nat} {cell : Cell}
    (h : cells[row]? = some cell) : c.nulls.isNull row = !cell.notNull := by
  obtain ⟨hrow, hcell⟩ := List.getElem?_eq_some_iff.mp h
  rw [hc.nulls_eq, Nulls.isNull_ofMarks (by rw [List.length_map]; exact hrow),
    List.getElem_map, hcell]

/-- **The value of a row** is what its cell stores, if it is not null. -/
theorem value_spec (hc : c.Holds spec format cells) {row : Nat} {cell : Cell}
    (h : cells[row]? = some cell) :
    c.value row =
      .ok (if cell.notNull then some (cell.stored (externalOf (cells.take row)).length)
      else none) := by
  have hrow : row < cells.length := (List.getElem?_eq_some_iff.mp h).1
  have hcheck : c.nulls.checkRow row = .ok () := by
    rw [Nulls.checkRow, hc.nulls_eq, Nulls.rows_ofMarks, List.length_map, if_pos hrow]
  rw [value, hcheck, ok_bind, isNull_spec hc h, span_spec hc h]
  cases cell.notNull <;> rfl

/-- Leaving out empty blocks does not change what blocks are joined to. -/
theorem flatten_filter (rows : List Nat) {p : Nat → Bool} {f : Nat → Bytes}
    (h : ∀ r ∈ rows, p r = false → f r = []) :
    ((rows.filter p).map f).flatten = rows.flatMap f := by
  induction rows with
  | nil => rfl
  | cons r rest ih =>
      have hrest := ih fun x hx => h x (List.mem_cons_of_mem r hx)
      rw [List.flatMap_cons]
      cases hr : p r with
      | true => rw [List.filter_cons_of_pos hr, List.map_cons, List.flatten_cons, hrest]
      | false =>
          rw [List.filter_cons_of_neg (by rw [hr]; exact Bool.false_ne_true), hrest,
            h r List.mem_cons_self hr, List.nil_append]

/-- **The octets of all rows** are what the cells store. -/
theorem spans_eq (hc : c.Holds spec format cells) :
    (List.range cells.length).map (fun r => c.span r (r + 1)) = storedFrom 0 cells := by
  apply List.ext_getElem
  · rw [List.length_map, List.length_range, length_storedFrom]
  · intro r h₁ h₂
    rw [length_storedFrom] at h₂
    have hr : cells[r]? = some cells[r] := List.getElem?_eq_getElem h₂
    have hstored : (storedFrom 0 cells)[r]? =
        some (cells[r].stored (0 + (externalOf (cells.take r)).length)) := getElem?_storedFrom hr
    rw [Nat.zero_add] at hstored
    rw [List.getElem_map, List.getElem_range, span_spec hc hr]
    exact (List.getElem?_eq_some_iff.mp hstored).2.symm

/-- The octets of a null row are none. -/
theorem span_of_isNull (hc : c.Holds spec format cells) {row : Nat} (h : row < cells.length)
    (hnull : c.nulls.isNull row = true) : c.span row (row + 1) = [] := by
  have hcell : cells[row]? = some cells[row] := List.getElem?_eq_getElem h
  rw [isNull_spec hc hcell, Bool.not_eq_true'] at hnull
  rw [span_spec hc hcell]
  generalize cells[row] = cell at hnull
  cases cell with
  | null => rfl
  | inline v => cases hnull
  | outside v => cases hnull

/-- **The values of a column**, joined, are its data, as null rows are empty. -/
theorem values_spec (hc : c.Holds spec format cells) : c.values.flatten = c.data.toList := by
  have hrows : c.nulls.rows = cells.length := by
    rw [hc.nulls_eq, Nulls.rows_ofMarks, List.length_map]
  rw [values, hrows, flatten_filter, List.flatMap_def, spans_eq hc, hc.data_eq]
  intro r hr hnull
  rw [Bool.not_eq_false'] at hnull
  exact span_of_isNull hc (List.mem_range.mp hr) hnull

/-! ## (5) Rebuilding -/

/-- Offsets read back from their octets. -/
theorem parseOffsets_flatMap (offsets : List UInt32) :
    parseOffsets offsets.length (offsets.flatMap fun o => Bytes.ofNatLE offsetWidth o.toNat) =
      offsets := by
  induction offsets with
  | nil => rfl
  | cons o rest ih =>
      have hlength : (Bytes.ofNatLE offsetWidth o.toNat).length = offsetWidth :=
        Bytes.length_ofNatLE _ _
      have hfits : o.toNat < 256 ^ offsetWidth := o.toNat_lt
      rw [List.length_cons, parseOffsets, List.flatMap_cons, List.take_left' hlength,
        List.drop_left' hlength, ih, Bytes.toNatLE_ofNatLE, Nat.mod_eq_of_lt hfits,
        UInt32.ofNat_toNat]

/-- Offsets have their width each. -/
theorem length_offsetBytes (c : VariableColumn) :
    c.offsetBytes.length = c.offsets.toList.length * offsetWidth := by
  unfold offsetBytes
  induction c.offsets.toList with
  | nil => exact (Nat.zero_mul _).symm
  | cons o rest ih =>
      rw [List.flatMap_cons, List.length_append, ih, Bytes.length_ofNatLE, List.length_cons,
        Nat.succ_mul, Nat.add_comm]

/-- Bounds never descend. -/
theorem descent?_boundsFrom {start index : Nat} {previous : UInt32} {blocks : List Bytes}
    (hprevious : previous.toNat ≤ start) (hsmall : ∀ x ∈ boundsFrom start blocks, x < UInt32.size) :
    descent? previous index ((boundsFrom start blocks).map UInt32.ofNat) = none := by
  induction blocks generalizing start index previous with
  | nil =>
      have hstart := hsmall start List.mem_cons_self
      have hle : ¬ UInt32.ofNat start < previous := by
        rw [UInt32.lt_iff_toNat_lt, UInt32.toNat_ofNat_of_lt' hstart]
        exact Nat.not_lt.mpr hprevious
      rw [boundsFrom, List.map_cons, descent?, if_neg hle]
      rfl
  | cons b rest ih =>
      have hstart := hsmall start List.mem_cons_self
      have hle : ¬ UInt32.ofNat start < previous := by
        rw [UInt32.lt_iff_toNat_lt, UInt32.toNat_ofNat_of_lt' hstart]
        exact Nat.not_lt.mpr hprevious
      rw [boundsFrom, List.map_cons, descent?, if_neg hle]
      refine ih ?_ fun x hx => hsmall x (List.mem_cons_of_mem start hx)
      rw [UInt32.toNat_ofNat_of_lt' hstart]
      exact Nat.le_add_right _ _

/-- **The streams of a column** give it back, less what is out of line. -/
theorem ofData_spec (hc : c.Holds spec format cells) :
    ofData spec format c.data.toList c.offsetBytes c.nulls c.toast =
      .ok { c with external := #[] } := by
  have hrows : c.nulls.rows = cells.length := by
    rw [hc.nulls_eq, Nulls.rows_ofMarks, List.length_map]
  have hcount : c.offsets.toList.length = c.nulls.rows + 1 := by
    rw [hc.offsets_eq, List.length_map, length_boundsFrom, length_storedFrom, hrows]
  have hparse : parseOffsets (c.nulls.rows + 1) c.offsetBytes = c.offsets.toList := by
    rw [← hcount]
    exact parseOffsets_flatMap c.offsets.toList
  have hfault : offsetFault? c.offsets.toList = none := by
    have hsmall := fun x hx => boundsFrom_small hc (x := x) hx
    rw [hc.offsets_eq]
    generalize storedFrom 0 cells = blocks at hsmall
    cases blocks with
    | nil => rfl
    | cons b rest =>
        rw [boundsFrom, List.map_cons, offsetFault?, if_neg (fun h => h rfl)]
        exact descent?_boundsFrom (Nat.zero_le _) fun x hx => hsmall x (List.mem_cons_of_mem 0 hx)
  have hlast : (c.offsets.toList.getLastD 0).toNat = c.data.toList.length := by
    have hzero : (0 : UInt32) = UInt32.ofNat 0 := rfl
    have hsmall := hc.small
    rw [hc.offsets_eq, hzero, List.getLastD_map, getLastD_boundsFrom, Nat.zero_add, ← hc.data_eq,
      UInt32.toNat_ofNat_of_lt' hsmall]
  have htoast : ¬ (c.toast.any fun b => b.len ≠ c.nulls.rows) = true := by
    rw [hc.toast_eq, toastOf]
    split
    · rw [Option.any_some, Bitmap.len_ofList, List.length_map, hrows]
      simp
    · exact Bool.false_ne_true
  have hnone : ¬ (spec.kind.fixedWidth.isSome = true) := by
    rw [hc.width_eq]
    exact Bool.false_ne_true
  have hkind := hc.kind_eq
  have halign := hc.align_eq
  have hformat := hc.format_eq
  rw [ofData, new, if_neg hnone, ColumnSpec.checkAlign, if_pos hc.valid, ok_bind]
  show (Except.ok _ >>= _) = _
  rw [ok_bind]
  dsimp only
  rw [if_neg (by rw [length_offsetBytes, hcount]; exact fun h => h rfl), hparse, hfault]
  dsimp only
  rw [if_neg (by rw [hlast]; exact fun h => h rfl), if_neg htoast, Rope.ofBytes_toList]
  obtain ⟨kind, align, format', data, offsets, nulls, toast, external⟩ := c
  dsimp only at hkind halign hformat ⊢
  rw [hkind, halign, hformat]
  rfl

end VariableColumn

end ColumnFile
