import ColumnFile.Proofs.Stripe.RoundTrip
import ColumnFile.Proofs.Writer.Rows

/-! # Values out of line

A value is stored out of line when its column is of variable length and it is longer than the writer
that takes it allows. What a row has out of line is told from the row and the options; one more row
adds just that to the columns.

* **`WriterOptions.outside`** — the values of a row that are stored out of line.
* **`Delivery`** — a row and the options of the writer that took it; `Delivery.octets` counts the
  octets out of line of deliveries.
* **`Writer.externalOf_rowCells`** — the cells of a row have out of line what the row has.
* **`Writer.appendValues_outside`** — one more row adds its octets out of line to the columns. -/

namespace ColumnFile

/-! ## (1) Rows -/

/-- **The value of a datum that is stored out of line**, if it is: its column is of variable length,
and it is longer than allowed. -/
def WriterOptions.outside? (options : WriterOptions) (spec : ColumnSpec) (d : Datum) :
    Option Bytes :=
  match options.toastThreshold, d.stored spec.kind with
  | some limit, .ok bs => if spec.kind.fixedWidth.isNone ∧ limit < bs.length then some bs else none
  | _, _ => none

/-- The **values of a row that are stored out of line**. -/
def WriterOptions.outside (options : WriterOptions) (row : Row) : List Bytes :=
  (List.zipWith options.outside? options.schema row).filterMap id

/-- A value out of line is not empty. -/
theorem WriterOptions.outside?_ne_nil {options : WriterOptions} {spec : ColumnSpec} {d : Datum}
    {bs : Bytes} (h : options.outside? spec d = some bs) : bs ≠ [] := by
  unfold outside? at h
  split at h
  · split at h
    · rename_i hlong
      cases h
      rintro rfl
      exact Nat.not_lt_zero _ hlong.2
    · cases h
  · cases h

/-- **A delivery**: a row, and the options of the writer that took it. -/
structure Delivery where
  /-- The options. -/
  options : WriterOptions
  /-- The row. -/
  row : Row
deriving DecidableEq, Inhabited

/-- The values that are stored out of line where the row was taken. -/
def Delivery.outside (d : Delivery) : List Bytes := d.options.outside d.row

/-- How many octets out of line the rows that were delivered have. -/
def Delivery.octets (deliveries : List Delivery) : Nat :=
  (deliveries.flatMap outside).flatten.length

namespace Delivery

@[simp] theorem octets_nil : octets [] = 0 := rfl

@[simp] theorem octets_append (deliveries more : List Delivery) :
    octets (deliveries ++ more) = octets deliveries + octets more := by
  simp [octets]

/-- **There are octets out of line** exactly when some row has a value out of line. -/
theorem octets_pos {deliveries : List Delivery} : 0 < octets deliveries ↔
    ∃ d ∈ deliveries, d.outside ≠ [] := by
  rw [octets, List.length_pos_iff, Ne, List.flatten_eq_nil_iff]
  constructor
  · intro h
    push Not at h
    obtain ⟨bs, hbs, -⟩ := h
    obtain ⟨d, hd, hbs⟩ := List.mem_flatMap.mp hbs
    exact ⟨d, hd, List.ne_nil_of_mem hbs⟩
  · rintro ⟨d, hd, hne⟩ hall
    obtain ⟨bs, hbs⟩ := List.exists_mem_of_ne_nil _ hne
    obtain ⟨_, hvalue, rfl⟩ := List.mem_filterMap.mp hbs
    obtain ⟨k, hk⟩ := List.mem_iff_getElem?.mp hvalue
    obtain ⟨spec, datum, -, -, houtside⟩ := List.getElem?_zipWith_eq_some.mp hk
    exact WriterOptions.outside?_ne_nil houtside (hall bs (List.mem_flatMap.mpr ⟨d, hd, hbs⟩))

end Delivery

namespace ColumnSet

variable [Library] {format : StorageFormat} {cells cells' : Nat → List Cell}
  {schema : List ColumnSpec}

/-! ## (2) Columns -/

/-- **Columns that got one more cell each** have out of line what these cells have, besides what
they had. -/
theorem length_external_grown {i : Nat} {columns columns' : List Column} {added : List Cell}
    (h : HoldsFrom format cells i columns schema) (h' : HoldsFrom format cells' i columns' schema)
    (hlength : added.length = schema.length)
    (hadded : ∀ k cell, added[k]? = some cell → cells' (i + k) = cells (i + k) ++ [cell]) :
    (columns'.flatMap Column.external).length =
      (columns.flatMap Column.external).length + (externalOf added).length := by
  induction h generalizing columns' added with
  | nil =>
      cases h'
      cases List.length_eq_zero_iff.mp hlength
      rfl
  | @cons i c spec columns schema hc hrest ih =>
      cases h' with
      | @cons _ c' _ columns' _ hc' hrest' =>
          cases added with
          | nil => cases hlength
          | cons cell added =>
              have hfirst : cells' i = cells i ++ [cell] := hadded 0 cell rfl
              have hothers := ih hrest' (Nat.succ.inj hlength) fun k cell hk => by
                rw [Nat.add_right_comm]
                exact hadded (k + 1) cell hk
              rw [List.flatMap_cons, List.flatMap_cons, List.length_append,
                List.length_append, hothers, hc.external_eq, hc'.external_eq, hfirst]
              simp only [externalOf, List.flatMap_append, List.flatMap_cons, List.flatMap_nil,
                List.length_append, List.length_nil]
              omega

/-- Columns without cells have nothing out of line. -/
theorem external_eq_nil {s : ColumnSet} (hs : HoldsFrom format cells 0 s.columns schema)
    (hcells : ∀ i < schema.length, cells i = []) : s.external = [] := by
  rw [external, List.flatMap_eq_nil_iff]
  intro c hc
  obtain ⟨k, hk⟩ := List.mem_iff_getElem?.mp hc
  obtain ⟨spec, hspec, hholds⟩ := hs.get hk
  rw [Nat.zero_add] at hholds
  rw [hholds.external_eq, hcells k (List.getElem?_eq_some_iff.mp hspec).1]
  rfl

/-- Columns have the same out of line after they were serialized. -/
theorem external_serialize {s s' : ColumnSet} {image : StripeImage}
    (hs : HoldsFrom format cells 0 s.columns schema) (h : s.serialize = (.ok image, s')) :
    s'.external = s.external := by
  obtain ⟨-, hfrom⟩ := serialize_eq_ok h
  have hmap := hs.map_eq (f := Column.external) (serializeFrom_holds hs hfrom) fun hc hc' => by
    rw [hc.external_eq, hc'.external_eq]
  rw [external, external, List.flatMap_def, List.flatMap_def, hmap]

end ColumnSet

namespace Writer

open ColumnSet (HoldsFrom)

variable {options : WriterOptions} {row : Row} {values : List (Option Bytes)}

/-! ## (3) Growth -/

/-- The cells of the stored values of a row. -/
def rowCells (options : WriterOptions) (values : List (Option Bytes)) : List Cell :=
  List.zipWith (fun spec value => cellOf options.toastThreshold spec.kind value)
    options.schema values

/-- The cell of a stored value has out of line what is out of line of its datum. -/
theorem external_cellOf {spec : ColumnSpec} {d : Datum} {value : Option Bytes}
    (h : (d = .null ∧ value = none) ∨
      ∃ bs, d.isNull = false ∧ value = some bs ∧ d.stored spec.kind = .ok bs) :
    (cellOf options.toastThreshold spec.kind value).external =
      (options.outside? spec d).toList.flatten := by
  unfold WriterOptions.outside?
  rcases h with ⟨rfl, rfl⟩ | ⟨bs, -, rfl, hstored⟩
  · -- nothing is stored for a null datum
    have hnull : ∃ e, Datum.null.stored spec.kind = .error e := by
      cases spec.kind <;> exact ⟨_, rfl⟩
    obtain ⟨e, he⟩ := hnull
    rw [he]
    cases options.toastThreshold <;> rfl
  · rw [hstored]
    unfold cellOf
    cases options.toastThreshold with
    | none => rfl
    | some limit =>
        dsimp only
        split
        · exact (List.append_nil bs).symm
        · rfl

/-- **The cells of a row** have out of line what is out of line of the row. -/
theorem externalOf_rowCells (h : storedRow options.schema row = .ok values)
    (hwidth : row.length = options.schema.length) :
    externalOf (rowCells options values) = (options.outside row).flatten := by
  obtain ⟨hlength, hall⟩ := storedRow_spec h hwidth
  unfold rowCells WriterOptions.outside
  generalize options.schema = schema at hwidth hlength hall
  clear h
  induction schema generalizing row values with
  | nil => rfl
  | cons spec schema ih =>
      obtain ⟨d, value, hd, hvalue, hcell⟩ := hall (i := 0) rfl
      cases row with
      | nil => cases hd
      | cons d' row =>
          cases values with
          | nil => cases hvalue
          | cons value' values =>
              cases hd
              cases hvalue
              have hrest := ih (Nat.succ.inj hwidth) (Nat.succ.inj hlength) fun {i} =>
                hall (i := i + 1)
              rw [List.zipWith_cons_cons, List.zipWith_cons_cons, externalOf, List.flatMap_cons,
                ← externalOf, hrest, external_cellOf hcell]
              cases options.outside? spec d <;> simp

variable [Library] {s s' : ColumnSet} {format : StorageFormat} {cells : Nat → List Cell}

/-- New columns have nothing out of line. -/
theorem external_fresh {attributes : List Attributes}
    (h : freshColumns options attributes = .ok s) :
    s.external = [] := by
  obtain ⟨columns, hcolumns, h⟩ := bind_eq_ok h
  cases h
  exact ColumnSet.external_eq_nil (ColumnSet.newFrom_spec hcolumns) fun _ _ => rfl

/-- **One more row** adds its octets out of line to the columns. -/
theorem appendValues_outside (hs : HoldsFrom format cells 0 s.columns options.schema)
    (hwidth : row.length = options.schema.length)
    (hstored : storedRow options.schema row = .ok values)
    (h : appendValues options.toastThreshold s values = (.ok (), s')) :
    s'.external.length = s.external.length + (options.outside row).flatten.length := by
  obtain ⟨hlength, -⟩ := storedRow_spec hstored hwidth
  obtain ⟨cells', hcells', -, hgrown⟩ := appendFrom_spec hs h
  rw [← externalOf_rowCells hstored hwidth]
  refine ColumnSet.length_external_grown hs hcells'
    (by rw [rowCells, List.length_zipWith, hlength, Nat.min_self]) ?_
  intro k cell hk
  obtain ⟨spec, value, hspec, hvalue, rfl⟩ := List.getElem?_zipWith_eq_some.mp hk
  exact hgrown hvalue (by rw [Nat.zero_add]; exact hspec)

end Writer

end ColumnFile
