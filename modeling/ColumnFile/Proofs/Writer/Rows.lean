import ColumnFile.Proofs.Reader.Group
import ColumnFile.Proofs.Statistics.Collector
import ColumnFile.Proofs.Stripe.Learned
import ColumnFile.Writer.Write

/-! # Rows become cells

What a writer does with a row before it counts it: the data are stored, and each column gets one
more cell.

* **`Writer.storedRow_spec`** — the stored values of a row.
* **`Writer.cellOf`** — the cell of a value; it shows the datum that was stored.
* **`Writer.appendValues_keeps`** — what every step of a column keeps;
  **`Writer.appendValues_spec`** — one more row of cells.
* **`Writer.appendValues_shows`** — the cells show the row behind the rows before it. -/

namespace ColumnFile.Writer

open ColumnSet (HoldsFrom)

/-! ## (1) Stored values -/

/-- **The stored values of a row**: none for a null datum, and the octets of any other. -/
theorem storedRow_spec {schema : List ColumnSpec} {row : Row} {values : List (Option Bytes)}
    (h : storedRow schema row = .ok values) (hwidth : row.length = schema.length) :
    values.length = schema.length ∧ ∀ {i : Nat} {spec : ColumnSpec}, schema[i]? = some spec →
      ∃ d value, row[i]? = some d ∧ values[i]? = some value ∧
        ((d = .null ∧ value = none) ∨
          ∃ bs, d.isNull = false ∧ value = some bs ∧ d.stored spec.kind = .ok bs) := by
  induction schema generalizing row values with
  | nil =>
      have hrow : row = [] := List.length_eq_zero_iff.mp hwidth
      rw [hrow] at h
      cases h
      refine ⟨rfl, ?_⟩
      intro i spec hspec
      cases hspec
  | cons first schema ih =>
      cases row with
      | nil => cases hwidth
      | cons d row =>
          -- what is stored for the first datum, and the rest of the row
          have hfirst : ∃ value rest, ((d = .null ∧ value = none) ∨
              ∃ bs, d.isNull = false ∧ value = some bs ∧ d.stored first.kind = .ok bs) ∧
              storedRow schema row = .ok rest ∧ values = value :: rest := by
            rw [storedRow] at h
            cases hnull : d.isNull with
            | true =>
                rw [hnull, if_pos rfl] at h
                obtain ⟨value, hvalue, h⟩ := bind_eq_ok h
                cases hvalue
                obtain ⟨rest, hrest, h⟩ := bind_eq_ok h
                cases h
                refine ⟨none, rest, .inl ⟨?_, rfl⟩, hrest, rfl⟩
                cases d with
                | null => rfl
                | _ => cases hnull
            | false =>
                rw [hnull, if_neg Bool.false_ne_true] at h
                obtain ⟨value, hvalue, h⟩ := bind_eq_ok h
                obtain ⟨bs, hstored, rfl⟩ := map_eq_ok hvalue
                obtain ⟨rest, hrest, h⟩ := bind_eq_ok h
                cases h
                exact ⟨some bs, rest, .inr ⟨bs, rfl, rfl, hstored⟩, hrest, rfl⟩
          obtain ⟨value, rest, hvalue, hrest, rfl⟩ := hfirst
          obtain ⟨hlength, hall⟩ := ih hrest (Nat.succ.inj hwidth)
          refine ⟨by rw [List.length_cons, List.length_cons, hlength], ?_⟩
          intro i spec hspec
          cases i with
          | succ i => exact hall hspec
          | zero =>
              cases hspec
              exact ⟨d, value, rfl, rfl, hvalue⟩

/-- **A row whose values were stored** suits the schema. -/
theorem suits_of_storedRow {schema : List ColumnSpec} {row : Row} {values : List (Option Bytes)}
    (h : storedRow schema row = .ok values) (hwidth : row.length = schema.length) :
    row.Suits schema := by
  refine ⟨hwidth, ?_⟩
  intro i spec hspec
  obtain ⟨d, value, hd, -, hvalue⟩ := (storedRow_spec h hwidth).2 hspec
  rw [List.getD_eq_getElem?_getD, hd, Option.getD_some]
  rcases hvalue with ⟨rfl, -⟩ | ⟨bs, -, -, hstored⟩
  · exact .inl rfl
  · exact .inr ⟨bs, hstored⟩

/-- **A row that suits the schema** has stored values. -/
theorem storedRow_total {schema : List ColumnSpec} {row : Row} (h : row.Suits schema) :
    ∃ values, storedRow schema row = .ok values := by
  induction schema generalizing row with
  | nil =>
      rw [List.length_eq_zero_iff.mp h.1]
      exact ⟨[], rfl⟩
  | cons first schema ih =>
      cases row with
      | nil => exact absurd h.1.symm (Nat.succ_ne_zero _)
      | cons d row =>
          have hrest : Row.Suits row schema :=
            ⟨Nat.succ.inj h.1, fun i spec hspec => h.2 (i + 1) spec hspec⟩
          obtain ⟨rest, hrest⟩ := ih hrest
          have hd : d.Suits first.kind := h.2 0 first rfl
          rw [storedRow, hrest]
          by_cases hnull : d.isNull = true
          · rw [if_pos hnull]
            exact ⟨_, rfl⟩
          · obtain ⟨bs, hbs⟩ := hd.resolve_left hnull
            rw [if_neg hnull, hbs]
            exact ⟨_, rfl⟩

/-! ## (2) Cells -/

/-- **The cell of a value** of a column of some kind. -/
def cellOf (threshold : Option Nat) (kind : Kind) : Option Bytes → Cell
  | none => .null
  | some bs =>
    match threshold with
    | some limit => if kind.fixedWidth.isNone ∧ limit < bs.length then .outside bs else .inline bs
    | none => .inline bs

/-- The cell of a stored datum shows it. -/
theorem cellOf_shows (threshold : Option Nat) {kind : Kind} {d : Datum} {bs : Bytes}
    (hnull : d.isNull = false) (h : d.stored kind = .ok bs) :
    (cellOf threshold kind (some bs)).Shows kind d := by
  unfold cellOf
  cases threshold with
  | none => exact ⟨hnull, h⟩
  | some limit =>
      dsimp only
      by_cases hlong : kind.fixedWidth.isNone ∧ limit < bs.length
      · rw [if_pos hlong]
        refine ⟨hnull, h, ?_⟩
        rintro rfl
        exact absurd hlong.2 (Nat.not_lt_zero _)
      · rw [if_neg hlong]
        exact ⟨hnull, h⟩

variable {threshold : Option Nat} {s s' : ColumnSet} {values : List (Option Bytes)}

/-- Growth teaches columns nothing. -/
theorem attributes_appendValue (threshold : Option Nat) (c : Column) (value : Option Bytes) :
    (appendValue threshold c value).2.attributes = c.attributes := by
  unfold appendValue
  cases value with
  | none => exact Column.attributes_appendNull c
  | some bs =>
      cases threshold with
      | none => exact Column.attributes_append c bs
      | some limit =>
          dsimp only
          split
          · exact Column.attributes_appendToast c bs
          · exact Column.attributes_append c bs

/-- **What every step of one column keeps**, is kept when values are appended, all of them or
some. -/
theorem appendValues_keeps (threshold : Option Nat) {P : ColumnSet → Prop}
    (values : List (Option Bytes))
    (hstep : ∀ s i value, P s → P (s.modify i fun c => appendValue threshold c value).2)
    (hs : P s) :
    P (appendValues threshold s values).2 := by
  unfold appendValues
  generalize values.zipIdx = places
  induction places generalizing s with
  | nil => exact hs
  | cons place places ih =>
      obtain ⟨value, i⟩ := place
      have hfirst := hstep s i value hs
      rw [Attempt.all]
      dsimp only
      split
      · rename_i s₁ hmodify
        rw [hmodify] at hfirst
        exact ih hfirst
      · rename_i e s₁ hmodify
        rw [hmodify] at hfirst
        exact hfirst

/-- **Columns learn nothing** from one more row. -/
theorem appendValues_learned (h : appendValues threshold s values = (.ok (), s'))
    (hlearned : ∀ c ∈ s.columns, c.attributes.Learned) :
    ∀ c ∈ s'.columns, c.attributes.Learned := by
  have hkept := appendValues_keeps threshold (P := fun s => ∀ c ∈ s.columns, c.attributes.Learned)
    values ?_
    hlearned
  · rw [h] at hkept
    exact hkept
  intro s i value hs
  unfold ColumnSet.modify
  cases hcolumn : s.columns[i]? with
  | none => exact hs
  | some c =>
      intro c' hc'
      rcases List.mem_or_eq_of_mem_set hc' with hc' | rfl
      · exact hs c' hc'
      · rw [attributes_appendValue threshold c value]
        exact hs c (List.mem_of_getElem? hcolumn)

variable [Library] {format : StorageFormat} {schema : List ColumnSpec} {cells : Nat → List Cell}

/-- **One more value** of a column is one more cell. -/
theorem appendValue_spec {c c' : Column} {spec : ColumnSpec} {cells : List Cell}
    {value : Option Bytes} (hc : c.Holds spec format cells)
    (h : appendValue threshold c value = (.ok (), c')) :
    c'.Holds spec format (cells ++ [cellOf threshold spec.kind value]) := by
  unfold appendValue at h
  unfold cellOf
  cases value with
  | none => exact Column.appendNull_spec hc h
  | some bs =>
      cases threshold with
      | none => exact Column.append_spec hc h
      | some limit =>
          dsimp only at h ⊢
          rw [hc.kind_eq] at h
          by_cases hlong : spec.kind.fixedWidth.isNone ∧ limit < bs.length
          · rw [if_pos hlong] at h ⊢
            exact Column.appendToast_spec hc h
          · rw [if_neg hlong] at h ⊢
            exact Column.append_spec hc h

/-- **One more value of each column** from a place on: the columns before it keep their cells. -/
theorem appendFrom_spec {i : Nat} (hs : HoldsFrom format cells 0 s.columns schema)
    (h : Attempt.all (fun s (value, i) => s.modify i fun c => appendValue threshold c value)
      (values.zipIdx i) s = (.ok (), s')) :
    ∃ cells', HoldsFrom format cells' 0 s'.columns schema ∧ (∀ k < i, cells' k = cells k) ∧
      ∀ {k : Nat} {value : Option Bytes} {spec : ColumnSpec}, values[k]? = some value →
        schema[i + k]? = some spec →
        cells' (i + k) = cells (i + k) ++ [cellOf threshold spec.kind value] := by
  -- value after value; each goes to the column of its place, and leaves the others
  induction values generalizing s i cells with
  | nil =>
      cases h
      refine ⟨cells, hs, fun _ _ => rfl, ?_⟩
      intro k value spec hvalue
      cases hvalue
  | cons first values ih =>
      rw [List.zipIdx_cons, Attempt.all] at h
      split at h
      · rename_i s₁ hfirst
        obtain ⟨c, c', hcolumn, hstep, hset⟩ := ColumnSet.modify_eq_ok hfirst
        obtain ⟨spec, hspec, hc⟩ := hs.get hcolumn
        rw [Nat.zero_add] at hc
        have hs₁ := hs.set hspec (appendValue_spec hc hstep)
        rw [Nat.zero_add, ← hset] at hs₁
        obtain ⟨cells', hcells', hbefore, hgrown⟩ := ih hs₁ h
        refine ⟨cells', hcells', ?_, ?_⟩
        · intro k hk
          rw [hbefore k (by omega), Function.update_of_ne (by omega)]
        · intro k value spec' hvalue hspec'
          cases k with
          | zero =>
              cases hvalue
              rw [Nat.add_zero] at hspec' ⊢
              rw [hspec] at hspec'
              cases hspec'
              rw [hbefore i (Nat.lt_succ_self i), Function.update_self]
          | succ k =>
              rw [← Nat.add_assoc, Nat.add_right_comm] at hspec' ⊢
              rw [hgrown hvalue hspec', Function.update_of_ne (by omega)]
      · cases h

/-- **One more row**: its cells show it behind the rows before it. -/
theorem appendValues_shows {row : Row} {rows : List Row}
    (hs : HoldsFrom format cells 0 s.columns schema) (hshows : Shows schema cells rows)
    (hwidth : row.length = schema.length) (hstored : storedRow schema row = .ok values)
    (h : appendValues threshold s values = (.ok (), s')) :
    ∃ cells', HoldsFrom format cells' 0 s'.columns schema ∧
    Shows schema cells' (rows ++ [row]) := by
  obtain ⟨-, hvalues⟩ := storedRow_spec hstored hwidth
  obtain ⟨cells', hcells', -, hgrown⟩ := appendFrom_spec hs h
  refine ⟨cells', hcells', ?_, ?_⟩
  · intro row' hrow'
    rcases List.mem_append.mp hrow' with hrow' | hrow'
    · exact hshows.width row' hrow'
    · rw [List.mem_singleton.mp hrow']
      exact hwidth
  · intro i spec hspec
    obtain ⟨d, value, hd, hvalue, hcell⟩ := hvalues hspec
    have hcells := hgrown hvalue (by rw [Nat.zero_add]; exact hspec)
    rw [Nat.zero_add] at hcells
    rw [hcells]
    refine List.rel_append (hshows.column hspec) (.cons ⟨d, hd, ?_⟩ .nil)
    rcases hcell with ⟨rfl, rfl⟩ | ⟨bs, hnull, rfl, hbs⟩
    · rfl
    · exact cellOf_shows threshold hnull hbs

end ColumnFile.Writer
