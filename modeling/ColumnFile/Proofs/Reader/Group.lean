import ColumnFile.Proofs.Datum.Stored
import ColumnFile.Proofs.Store.Basic
import ColumnFile.Proofs.Stripe.RoundTrip
import ColumnFile.Reader.Group

/-! # Groups show the rows of their cells

What a reader sees of the columns of a stripe, once the values out of line are fetched from the file
beside it: the rows whose data the cells store.

* **`Cell.Shows`** — a cell that stores a datum; **`Shows`** is the same for cells and rows.
* **`ColumnSet.Reads`** — decoded columns that read like cells.
* **`Group.fetchToast_spec`** — the values out of line, by rows.
* **`Group.row_spec`** — a row of a group. -/

namespace ColumnFile

/-! ## (1) References and ranges -/

/-- **A reference reads back.** -/
theorem ToastRef.decode_encode (r : ToastRef) : decode r.encode = .ok r := by
  have hlength : r.encode.length = size := length_encode r
  have htake : r.encode.take 8 = Bytes.ofNatLE 8 r.offset.toNat :=
    List.take_left' (Bytes.length_ofNatLE 8 _)
  have hdrop : r.encode.drop 8 = Bytes.ofNatLE 8 r.length.toNat :=
    List.drop_left' (Bytes.length_ofNatLE 8 _)
  have hoffset : r.offset.toNat % 256 ^ 8 = r.offset.toNat := Nat.mod_eq_of_lt r.offset.toNat_lt
  have hlen : r.length.toNat % 256 ^ 8 = r.length.toNat := Nat.mod_eq_of_lt r.length.toNat_lt
  rw [decode, if_neg (by rw [hlength]; exact fun h => h rfl), htake, hdrop, Bytes.toNatLE_ofNatLE,
    Bytes.toNatLE_ofNatLE, hoffset, hlen, UInt64.ofNat_toNat, UInt64.ofNat_toNat]

/-- **A block among joined blocks** is a range behind the lengths of those before it. -/
theorem Bytes.slice?_flatten {blocks : List Bytes} {i : Nat} {b : Bytes} (h : blocks[i]? = some b) :
    Bytes.slice? blocks.flatten ((blocks.map List.length).take i).sum b.length = some b := by
  obtain ⟨hlt, hget⟩ := List.getElem?_eq_some_iff.mp h
  have hsplit : blocks.flatten =
      (blocks.take i).flatten ++ b ++ (blocks.drop (i + 1)).flatten := by
    rw [List.append_assoc, ← List.flatten_cons, ← hget, ← List.drop_eq_getElem_cons hlt,
      ← List.flatten_append, List.take_append_drop]
  rw [hsplit, ← List.map_take, ← List.length_flatten]
  exact StripeImage.slice?_append _ b _

/-- Partners are members of their lists. -/
theorem partners_mem {α β : Type} {R : α → β → Prop} {l : List α} {l' : List β}
    (h : List.Forall₂ R l l') :
    List.Forall₂ (fun a b => a ∈ l ∧ b ∈ l' ∧ R a b) l l' := by
  induction h with
  | nil => exact .nil
  | cons hR _ ih =>
      refine .cons ⟨List.mem_cons_self, List.mem_cons_self, hR⟩ (ih.imp ?_)
      rintro a b ⟨ha, hb, hR⟩
      exact ⟨List.mem_cons_of_mem _ ha, List.mem_cons_of_mem _ hb, hR⟩

/-! ## (2) Cells and data -/

/-- **A cell shows a datum** of a kind: it stores it, in its row or out of line. -/
def Cell.Shows (kind : Kind) : Cell → Datum → Prop
  | .null, d => d = .null
  | .inline bs, d => d.isNull = false ∧ d.stored kind = .ok bs
  | .outside bs, d => d.isNull = false ∧ d.stored kind = .ok bs ∧ bs ≠ []

/-- **Cells show rows** of a schema: every row has a datum for each column, and the cells of the
column show it. -/
structure Shows (schema : List ColumnSpec) (cells : Nat → List Cell) (rows : List Row) : Prop where
  width : ∀ row ∈ rows, row.length = schema.length
  column : ∀ {i : Nat} {spec : ColumnSpec}, schema[i]? = some spec →
    List.Forall₂ (fun cell (row : Row) => ∃ d, row[i]? = some d ∧ cell.Shows spec.kind d)
    (cells i) rows

/-- **A decoded column reads like cells**: its marks of references and its values are those of the
cells. -/
structure Column.Reads (c : Column) (cells : List Cell) : Prop where
  rows : c.rows = cells.length
  toastRows : c.toastRows = VariableColumn.toastOf cells
  value : ∀ {row : Nat} {cell : Cell}, cells[row]? = some cell → c.value row =
    .ok (if cell.notNull then some (cell.stored (externalOf (cells.take row)).length) else none)

/-- **Decoded columns read like cells**, each like those of its place. -/
structure ColumnSet.Reads (s : ColumnSet) (schema : List ColumnSpec) (cells : Nat → List Cell) :
    Prop where
  width : s.columns.length = schema.length
  column : ∀ {i : Nat} {c : Column}, s.columns[i]? = some c → c.Reads (cells i)

/-- Columns that read like ones that hold cells, read like the cells. -/
theorem ColumnSet.reads_of_mirrors [BlockLibrary] {format : StorageFormat}
    {schema : List ColumnSpec} {cells : Nat → List Cell} {s decoded : ColumnSet}
    (hs : HoldsFrom format cells 0 s.columns schema)
    (h : List.Forall₂ Column.Mirrors decoded.columns s.columns) : decoded.Reads schema cells := by
  constructor
  · rw [h.length_eq, hs.length_eq]
  · intro i d hd
    obtain ⟨c, hc, hmirrors⟩ := partner h hd
    obtain ⟨spec, -, hholds⟩ := hs.get hc
    rw [Nat.zero_add] at hholds
    refine ⟨?_, ?_, ?_⟩
    · rw [hmirrors.rows, hholds.rows_eq]
    · rw [hmirrors.toastRows, hholds.toastRows_eq]
    · intro row cell hcell
      rw [hmirrors.value, hholds.value_eq hcell]

/-! ## (3) Values out of line -/

/-- The value that a cell stores out of line, if it does. -/
def Cell.outside? : Cell → Option Bytes
  | .outside v => some v
  | _ => none

/-- **The values out of line of some cells**, by rows. -/
def Fetched (cells : List Cell) (values : List (Nat × Bytes)) : Prop :=
  ∀ row cell, cells[row]? = some cell → values.lookup row = cell.outside?

/-- **A value out of line** is a range of those of its column, behind those of the rows before. -/
theorem slice?_externalOf {cells : List Cell} {row : Nat} {v : Bytes}
    (h : cells[row]? = some (.outside v)) :
    Bytes.slice? (externalOf cells) (externalOf (cells.take row)).length v.length = some v := by
  have hblock : (cells.map Cell.external)[row]? = some v := by
    rw [List.getElem?_map, h]
    rfl
  have hslice := Bytes.slice?_flatten hblock
  rw [← List.map_take, ← List.map_take, ← List.length_flatten, ← List.flatMap_def,
    ← List.flatMap_def] at hslice
  exact hslice

namespace Group

variable {store : Store} {file : FileId} {base : Nat} {c : Column} {cells : List Cell}

/-- **The value that a row refers to** is fetched from the octets of its column. -/
theorem fetchValue_spec (hstore : store.foreign = false) (hc : c.Reads cells)
    (hslice : (store.get file).slice? base (externalOf cells).length = some (externalOf cells))
    (hsmall : (externalOf cells).length < 2 ^ 64) {row : Nat} {v : Bytes}
    (h : cells[row]? = some (.outside v)) :
    fetchValue store file base c row = .ok (row, v) := by
  have hrange := slice?_externalOf h
  have hle := Bytes.le_of_slice? hrange
  have hread : store.read file (base + (externalOf (cells.take row)).length) v.length = .ok v :=
    (Store.read_eq_ok hstore).mpr (Bytes.slice?_slice? hslice hrange)
  rw [fetchValue, hc.value h, ok_bind]
  show (ToastRef.decode (ToastRef.encode _) >>= _) = _
  rw [ToastRef.decode_encode, ok_bind]
  dsimp only
  rw [UInt64.toNat_ofNat_of_lt' (by show _ < 2 ^ 64; omega),
    UInt64.toNat_ofNat_of_lt' (by show _ < 2 ^ 64; omega), hread]
  rfl

/-- **The values out of line of a column**, by rows. -/
theorem fetchColumn_spec {toastFile : Option FileId} (hstore : store.foreign = false)
    (hc : c.Reads cells)
    (hslice : cells.any Cell.isOutside = true → ∃ file, toastFile = some file ∧
      (store.get file).slice? base (externalOf cells).length = some (externalOf cells))
    (hsmall : (externalOf cells).length < 2 ^ 64) :
    ∃ values, fetchColumn store toastFile base c = .ok values ∧ Fetched cells values := by
  unfold fetchColumn
  rw [hc.toastRows, VariableColumn.toastOf]
  -- without values out of line there is nothing to fetch
  by_cases hany : cells.any Cell.isOutside = true
  · obtain ⟨file, rfl, hfile⟩ := hslice hany
    rw [if_pos hany]
    dsimp only
    -- the marked rows are those whose cells are out of line
    have hones : ∀ row, row ∈ (Bitmap.ofList (cells.map Cell.isOutside)).ones ↔
        ∃ v, cells[row]? = some (.outside v) := by
      intro row
      rw [Bitmap.ones, List.mem_filter, List.mem_range, Bitmap.len_ofList, List.length_map,
        Bitmap.get_ofList, List.getElem?_map]
      constructor
      · rintro ⟨hlt, hset⟩
        rw [List.getElem?_eq_getElem hlt] at hset ⊢
        cases hcell : cells[row] with
        | outside v => exact ⟨v, rfl⟩
        | null =>
            rw [hcell] at hset
            cases hset
        | inline v =>
            rw [hcell] at hset
            cases hset
      · rintro ⟨v, hcell⟩
        refine ⟨(List.getElem?_eq_some_iff.mp hcell).1, ?_⟩
        rw [hcell]
        rfl
    have hfetch : (Bitmap.ofList (cells.map Cell.isOutside)).ones.mapM
      (fetchValue store file base c) =
        .ok ((Bitmap.ofList (cells.map Cell.isOutside)).ones.map fun row =>
          (row, (cells[row]?.bind Cell.outside?).getD [])) := by
      refine mapM_eq_map ?_
      intro row hrow
      obtain ⟨v, hcell⟩ := (hones row).mp hrow
      rw [fetchValue_spec hstore hc hfile hsmall hcell, hcell]
      rfl
    refine ⟨_, hfetch, ?_⟩
    -- a row that is not marked was fetched nothing for
    intro row cell hcell
    by_cases hmem : row ∈ (Bitmap.ofList (cells.map Cell.isOutside)).ones
    · obtain ⟨v, hcell'⟩ := (hones row).mp hmem
      rw [List.lookup_graph _ hmem, hcell']
      rw [hcell] at hcell'
      cases hcell'
      rfl
    · have hnone : cell.outside? = none := by
        cases cell with
        | null => rfl
        | inline v => rfl
        | outside v => exact absurd ((hones row).mpr ⟨v, hcell⟩) hmem
      rw [hnone, List.lookup_eq_none_iff]
      intro p hp
      obtain ⟨row', hrow', rfl⟩ := List.mem_map.mp hp
      rw [bne_iff_ne]
      rintro rfl
      exact hmem hrow'
  · rw [if_neg hany]
    refine ⟨[], rfl, ?_⟩
    intro row cell hcell
    cases cell with
    | null => rfl
    | inline v => rfl
    | outside v => exact absurd (List.any_eq_true.mpr ⟨_, List.mem_of_getElem? hcell, rfl⟩) hany

/-- **The values out of line of all columns** are fetched, each column's by rows. -/
theorem fetchToast_spec {toastFile : Option FileId} {info : StripeInformation} {columns : ColumnSet}
    {schema : List ColumnSpec} {cells : Nat → List Cell} (hstore : store.foreign = false)
    (hreads : columns.Reads schema cells)
    (hslice : ∀ i < schema.length, (cells i).any Cell.isOutside = true → ∃ file,
      toastFile = some file ∧
      (store.get file).slice? (info.toastBase i) (externalOf (cells i)).length =
        some (externalOf (cells i)))
    (hsmall : ∀ i < schema.length, (externalOf (cells i)).length < 2 ^ 64) :
    ∃ toasted, fetchToast store toastFile info columns = .ok toasted ∧ ∀ i < schema.length,
      ∃ values, toasted[i]? = some values ∧ Fetched (cells i) values := by
  obtain ⟨toasted, htoasted, hall⟩ := mapM_eq_ok (l := columns.columns.zipIdx)
    (f := fun p => fetchColumn store toastFile (info.toastBase p.2) p.1)
    (P := fun p values => Fetched (cells p.2) values) (by
      rintro ⟨c, i⟩ hmem
      have hget : columns.columns[i]? = some c := List.mem_zipIdx_iff_getElem?.mp hmem
      have hlt : i < schema.length := by
        rw [← hreads.width]
        exact (List.getElem?_eq_some_iff.mp hget).1
      exact fetchColumn_spec hstore (hreads.column hget) (hslice i hlt) (hsmall i hlt))
  refine ⟨toasted, htoasted, ?_⟩
  intro i hi
  have hi' : i < columns.columns.length := by
    rw [hreads.width]
    exact hi
  obtain ⟨values, hvalues, hfetched⟩ := partner hall (i := i) (a := (columns.columns[i], i)) (by
    rw [List.getElem?_zipIdx, List.getElem?_eq_getElem hi']
    simp)
  exact ⟨values, hvalues, hfetched⟩

/-! ## (4) Rows -/

/-- **A group of some rows**: its columns read like cells that show the rows, and what they store
out of line was fetched. -/
structure Holds (g : Group) (rows : List Row) : Prop where
  count : g.rows = rows.length
  cells : ∃ cells, g.columns.Reads g.schema cells ∧ ColumnFile.Shows g.schema cells rows ∧
    ∀ i < g.schema.length, ∃ values, g.toasted[i]? = some values ∧ Fetched (cells i) values

/-- **A row of a group** reads back. -/
theorem Holds.row {g : Group} {rows : List Row} (h : g.Holds rows) {k : Nat} {row : Row}
    (hrow : rows[k]? = some row) : g.row k = .ok row := by
  obtain ⟨-, cells, hreads, hshows, htoasted⟩ := h
  have hwidth : row.length = g.schema.length := hshows.width row (List.mem_of_getElem? hrow)
  have hvalue : ∀ i ∈ List.range g.schema.length, g.value i k = .ok (row[i]?.getD .null) := by
    intro i hi
    rw [List.mem_range] at hi
    have hspec : g.schema[i]? = some g.schema[i] := List.getElem?_eq_getElem hi
    have hi' : i < g.columns.columns.length := by
      rw [hreads.width]
      exact hi
    have hcolumn : g.columns.columns[i]? = some g.columns.columns[i] := List.getElem?_eq_getElem hi'
    obtain ⟨values, hvalues, hlookup⟩ := htoasted i hi
    -- the cell of the column in the row
    obtain ⟨cell, hcell, d, hd, hshow⟩ := partner (hshows.column hspec).flip hrow
    have htoast : g.toastOf i k = cell.outside? := by
      rw [toastOf, hvalues]
      exact hlookup k _ hcell
    have hread := (hreads.column hcolumn).value hcell
    rw [value, hspec]
    dsimp only
    rw [htoast, hd, Option.getD_some]
    cases cell with
    | outside v =>
        obtain ⟨-, hstored, -⟩ := hshow
        exact Datum.ofStored_stored hstored
    | inline v =>
        obtain ⟨-, hstored⟩ := hshow
        show (g.columns.column? i >>= _) = _
        rw [ColumnSet.column?, hcolumn]
        dsimp only
        rw [ok_bind, hread]
        exact Datum.ofStored_stored hstored
    | null =>
        show (g.columns.column? i >>= _) = _
        rw [ColumnSet.column?, hcolumn]
        dsimp only
        rw [ok_bind, hread, show d = .null from hshow]
        rfl
  rw [Group.row, mapM_eq_map hvalue]
  congr 1
  refine List.ext_getElem (by rw [List.length_map, List.length_range, hwidth]) ?_
  intro i hi hi'
  rw [List.getElem_map, List.getElem_range, List.getElem?_eq_getElem hi', Option.getD_some]

end Group

end ColumnFile
