import ColumnFile.Proofs.Statistics.Collector
import Mathlib.Data.List.Induction
import Mathlib.Data.List.Lattice

/-! # Merged statistics are those of all rows in turn

The running statistics of a column are a function of its data and of what is kept of them. The
function turns the concatenation of data into the merging of statistics, so how rows were split over
collectors is not seen in the end.

* **`ColumnCollector.collected`** — the running statistics of some data; `collected_add`,
  **`collected_merge`** and `collected_reset` are the steps of a collection.
* **`Collector.Fed`** — the collectors that rows, merging and resetting lead to, with what they keep
  and the rows that they hold; **`Collector.Fed.column`**.
* **`Collector.merge_then_add`** — merging two collectors and adding rows gives the statistics of
  one collector for all the rows. -/

namespace ColumnFile

variable [BloomScheme]

namespace ColumnCollector

variable {family : ValueRange.Family} {data more : List Datum} {d : Datum} {ranged digested : Bool}

/-! ## (1) The statistics of some data -/

/-- The range of some data. -/
def rangeOf (data : List Datum) : Option ValueRange :=
  data.foldl (fun range d => widen range (ValueRange.of d)) none

/-- The digests of some data, the last one first. -/
def digestsOf (data : List Datum) : List UInt64 :=
  (data.filterMap Datum.digestKey?).reverse.map BloomScheme.digest

/-- **The running statistics of some data**, with or without their range and their digests. -/
def collected (ranged digested : Bool) (data : List Datum) : ColumnCollector where
  ranged
  rows := data.length
  nonNull := data.countP (!·.isNull)
  range := if ranged then rangeOf data else none
  digests := if digested then some (digestsOf data) else none

omit [BloomScheme] in
/-- Nothing is joined to a range by none. -/
@[simp] theorem widen_none (range : Option ValueRange) : widen range none = range := by
  cases range <;> rfl

omit [BloomScheme] in
@[simp] theorem none_widen (range : Option ValueRange) : widen none range = range := by
  cases range <;> rfl

omit [BloomScheme] in
@[simp] theorem rangeOf_concat (data : List Datum) (d : Datum) :
    rangeOf (data ++ [d]) = widen (rangeOf data) (ValueRange.of d) := by
  rw [rangeOf, List.foldl_append]
  rfl

omit [BloomScheme] in
/-- **The range of data of one family** is of the family. -/
theorem family_rangeOf (hdata : ∀ d ∈ data, d.InFamily family) :
    ∀ r, rangeOf data = some r → r.family = family := by
  induction data using List.reverseRecOn with
  | nil =>
      intro r hr
      cases hr
  | append_singleton data d ih =>
      rw [rangeOf_concat]
      exact (widen_spec (ih fun d' hd' => hdata d' (List.mem_append_left _ hd'))
        (hdata d (List.mem_append_right _ (List.mem_singleton_self d)))).1

omit [BloomScheme] in
/-- **Three ranges of one family**, where there are any: which two of them are joined first does not
matter. -/
theorem widen_assoc {a b c : Option ValueRange} (ha : ∀ r, a = some r → r.family = family)
    (hb : ∀ r, b = some r → r.family = family) (hc : ∀ r, c = some r → r.family = family) :
    widen (widen a b) c = widen a (widen b c) := by
  cases a with
  | none => rw [none_widen, none_widen]
  | some a =>
      cases b with
      | none => rw [widen_none, none_widen]
      | some b =>
          cases c with
          | none => rw [widen_none, widen_none]
          | some c =>
              exact congrArg some <| ValueRange.widen_assoc ((ha a rfl).trans (hb b rfl).symm)
                ((hb b rfl).trans (hc c rfl).symm)

omit [BloomScheme] in
/-- **The range of data and further data** joins the two ranges. -/
theorem rangeOf_append (hdata : ∀ d ∈ data, d.InFamily family)
    (hmore : ∀ d ∈ more, d.InFamily family) :
    rangeOf (data ++ more) = widen (rangeOf data) (rangeOf more) := by
  induction more using List.reverseRecOn with
  | nil => rw [List.append_nil, show rangeOf [] = none from rfl, widen_none]
  | append_singleton more d ih =>
      have hbefore : ∀ d' ∈ more, d'.InFamily family := fun d' hd' =>
        hmore d' (List.mem_append_left _ hd')
      have hlast : ∀ d' ∈ [d], d'.InFamily family := fun d' hd' =>
        hmore d' (List.mem_append_right _ hd')
      have hpoint : rangeOf [d] = ValueRange.of d := none_widen _
      rw [← List.append_assoc, rangeOf_concat, rangeOf_concat, ih hbefore, ← hpoint,
        widen_assoc (family_rangeOf hdata) (family_rangeOf hbefore) (family_rangeOf hlast)]

/-- The digests of further data come in front. -/
theorem digestsOf_append (data more : List Datum) :
    digestsOf (data ++ more) = digestsOf more ++ digestsOf data := by
  rw [digestsOf, List.filterMap_append, List.reverse_append, List.map_append]
  rfl

/-! ## (2) The steps of a collection -/

/-- **The statistics that a collection begins with.** -/
theorem collected_nil (ranged digested : Bool) :
    collected ranged digested [] = { ranged, digests := if digested then some [] else none } := by
  cases ranged <;> rfl

/-- **One more datum.** -/
theorem collected_add (ranged digested : Bool) (data : List Datum) (d : Datum) :
    (collected ranged digested data).add d = collected ranged digested (data ++ [d]) := by
  have hrange : (if ranged then widen (if ranged then rangeOf data else none) (ValueRange.of d)
      else if ranged then rangeOf data else none) = if ranged then rangeOf (data ++ [d])
        else none := by
    cases ranged
    · rfl
    · exact (rangeOf_concat data d).symm
  cases hnull : d.isNull with
  | true =>
      have hdigests : digestsOf (data ++ [d]) = digestsOf data := by
        rw [digestsOf_append, digestsOf, List.filterMap_cons, digestKey?_of_null hnull]
        rfl
      rw [add, if_pos hnull, collected, collected, rangeOf_concat, ValueRange.of_null hnull,
        widen_none, hdigests]
      simp [hnull]
  | false =>
      rw [add, if_neg (by rw [hnull]; exact Bool.false_ne_true), collected, collected, ← hrange,
        digestsOf_append]
      cases digested with
      | false => simp [hnull]
      | true =>
          cases hkey : d.digestKey? with
          | none => simp [hnull, hkey, digestsOf]
          | some key => simp [hnull, hkey, digestsOf]

/-- **The data of another collector.** What is kept is kept by both. -/
theorem collected_merge (hdata : ∀ d ∈ data, d.InFamily family)
    (hmore : ∀ d ∈ more, d.InFamily family) (ranged digested ranged' digested' : Bool) :
    (collected ranged digested data).merge (collected ranged' digested' more) =
      collected (ranged && ranged') (digested && digested') (data ++ more) := by
  have hdigests := digestsOf_append data more
  have hrange := rangeOf_append hdata hmore
  rw [merge, collected, collected, collected, List.length_append, List.countP_append,
    hdigests, hrange]
  cases ranged <;> cases ranged' <;> cases digested <;> cases digested' <;> rfl

/-- **A column that begins anew.** -/
theorem collected_reset (ranged digested : Bool) (data : List Datum) :
    (collected ranged digested data).reset = collected ranged digested [] := by
  rw [collected_nil, reset, collected]
  cases digested <;> rfl

end ColumnCollector

/-! ## (3) Collections over a schema -/

namespace Collector

/-- **A collector that was fed**: it began without rows; rows were added that are admitted; others
over the schema were merged into it; and it began anew. What it keeps of which columns, the names
`ranged` and `digested` tell, and the rows that it holds are those since it last began anew, in
turn. -/
inductive Fed (schema : List ColumnSpec) (admits : Row → Prop) :
    Collector → List String → List String → List Row → Prop
  | new (ranged digested : List String) :
      Fed schema admits (new schema ranged digested) ranged digested []
  | addRow {s s' : Collector} {ranged digested : List String} {rows : List Row} {row : Row} :
      Fed schema admits s ranged digested rows → admits row → s.addRow row = .ok s' →
        Fed schema admits s' ranged digested (rows ++ [row])
  | merge {s other s' : Collector} {ranged digested ranged' digested' : List String}
      {rows more : List Row} :
      Fed schema admits s ranged digested rows → Fed schema admits other ranged' digested' more →
        s.merge other = .ok s' →
        Fed schema admits s' (ranged ∩ ranged') (digested ∩ digested') (rows ++ more)
  | reset {s : Collector} {ranged digested : List String} {rows : List Row} :
      Fed schema admits s ranged digested rows → Fed schema admits s.reset ranged digested []

namespace Fed

variable {schema : List ColumnSpec} {admits : Row → Prop} {s s' other : Collector}
  {ranged digested ranged' digested' : List String} {rows more : List Row} {row : Row}

/-- A collector that was fed has the columns of the schema. -/
theorem width (h : s.Fed schema admits ranged digested rows) :
    s.columns.length = schema.length := by
  induction h with
  | new ranged digested => exact List.length_map _
  | addRow _ _ hadd ih => exact (addRow_width hadd).2.trans ih
  | merge _ _ hmerge ih _ => exact (merge_width hmerge).trans ih
  | reset _ ih => exact (List.length_map _).trans ih

/-- The rows that a collector holds were admitted. -/
theorem admitted (h : s.Fed schema admits ranged digested rows) : ∀ row ∈ rows, admits row := by
  induction h with
  | new ranged digested =>
      intro row hrow
      cases hrow
  | addRow _ hadmits _ ih =>
      intro row hrow
      rcases List.mem_append.mp hrow with hrow | hrow
      · exact ih row hrow
      · rwa [List.mem_singleton.mp hrow]
  | merge _ _ _ ih ih' =>
      intro row hrow
      rcases List.mem_append.mp hrow with hrow | hrow
      · exact ih row hrow
      · exact ih' row hrow
  | reset _ _ =>
      intro row hrow
      cases hrow

omit [BloomScheme] in
/-- What two lists of names both name. -/
theorem contains_inter (names names' : List String) (name : String) :
    (names ∩ names').contains name = (names.contains name && names'.contains name) := by
  simp

/-- **A column of a collector that was fed** has the statistics of its data, if those are of one
family. -/
theorem column {i : Nat} {spec : ColumnSpec} (hspec : schema[i]? = some spec)
    (hadmits : ∀ row, admits row → (row.getD i .null).InFamily spec.kind.family)
    (h : s.Fed schema admits ranged digested rows) :
    s.columns[i]? = some (.collected (ranged.contains spec.name) (digested.contains spec.name)
      (columnOf i rows)) := by
  -- what a collector was fed is of the family of its column
  have hfamily : ∀ {s ranged digested rows}, Fed schema admits s ranged digested rows →
      ∀ d ∈ columnOf i rows, d.InFamily spec.kind.family := by
    intro s ranged digested rows h d hd
    obtain ⟨row, hrow, rfl⟩ := List.mem_map.mp hd
    exact hadmits row (h.admitted row hrow)
  -- a step of the tree is the same step on the data of the column
  induction h with
  | new ranged digested =>
      rw [Collector.new, List.getElem?_map, hspec]
      exact congrArg some (ColumnCollector.collected_nil _ _).symm
  | @addRow s s' ranged digested rows row h hadmitted hadd ih =>
      unfold Collector.addRow at hadd
      split at hadd
      · cases hadd
      · rename_i hwidth
        cases hadd
        have hi : i < row.length := by
          rw [Classical.not_not.mp hwidth, h.width]
          exact (List.getElem?_eq_some_iff.mp hspec).1
        have hdata : columnOf i (rows ++ [row]) = columnOf i rows ++ [row[i]] := by
          rw [columnOf, List.map_append, List.map_singleton, List.getD_eq_getElem?_getD,
            List.getElem?_eq_getElem hi]
          rfl
        rw [List.getElem?_zipWith, ih, List.getElem?_eq_getElem hi, hdata]
        exact congrArg some (ColumnCollector.collected_add _ _ _ _)
  | @merge s other s' ranged digested ranged' digested' rows more h hother hmerge ih ih' =>
      unfold Collector.merge at hmerge
      split at hmerge
      · cases hmerge
      · cases hmerge
        have hdata : columnOf i (rows ++ more) = columnOf i rows ++ columnOf i more :=
          List.map_append
        rw [List.getElem?_zipWith, ih, ih', hdata, contains_inter, contains_inter]
        exact congrArg some (ColumnCollector.collected_merge (hfamily h) (hfamily hother) _ _ _ _)
  | reset h ih =>
      rw [Collector.reset, List.getElem?_map, ih]
      exact congrArg some (ColumnCollector.collected_reset _ _ _)

/-- **Collectors that keep the same and hold the same rows** are the same, whatever they went
through. -/
theorem unique (h : s.Fed schema (·.Suits schema) ranged digested rows)
    (h' : s'.Fed schema (·.Suits schema) ranged digested rows) : s = s' := by
  have hcolumns : s.columns = s'.columns := by
    refine List.ext_getElem? fun i => ?_
    cases hspec : schema[i]? with
    | none =>
        have hi := List.getElem?_eq_none_iff.mp hspec
        rw [List.getElem?_eq_none (by rw [h.width]; exact hi),
          List.getElem?_eq_none (by rw [h'.width]; exact hi)]
    | some spec =>
        have hadmits : ∀ row : Row, row.Suits schema →
          (row.getD i .null).InFamily spec.kind.family :=
          fun row hrow => (hrow.2 i spec hspec).inFamily
        rw [h.column hspec hadmits, h'.column hspec hadmits]
  cases s
  cases s'
  exact congrArg Collector.mk hcolumns

end Fed

end Collector

end ColumnFile
