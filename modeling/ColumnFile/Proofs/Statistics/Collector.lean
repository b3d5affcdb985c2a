import ColumnFile.Proofs.Statistics.Bloom
import ColumnFile.Proofs.Statistics.Range

/-! # Statistics describe the rows that were collected

The counts are exact, and no datum that was counted is ruled out. Only data that columns of one kind
store are collected together; this is why the ranges of two collectors may be joined.

* **`ColumnCollector.Describes`** — the running statistics of a column and its data; one lemma for
  each step.
* **`ColumnStatistics.Describes`** — finished statistics and the data;
  `ColumnCollector.Describes.finish`.
* **`Collector.Describes`** — the running statistics of all columns and the rows. -/

namespace ColumnFile

variable [BloomScheme]

/-- **A datum suits a kind**: it is null, or a column of the kind stores it. -/
def Datum.Suits (d : Datum) (kind : Kind) : Prop := d.isNull = true ∨ ∃ bs, d.stored kind = .ok bs

omit [BloomScheme] in
/-- A datum that suits a kind is of its family. -/
theorem Datum.Suits.inFamily {d : Datum} {kind : Kind} (h : d.Suits kind) :
    d.InFamily kind.family := by
  rcases h with hnull | ⟨bs, hstored⟩
  · intro r hr
    rw [ValueRange.of_null hnull] at hr
    cases hr
  · exact ValueRange.inFamily_of_stored hstored

/-! ## (1) A column -/

namespace ColumnCollector

variable {c other : ColumnCollector} {kind : Kind} {family : ValueRange.Family}
  {data more : List Datum}
  {d : Datum}

/-- **The running statistics of a column** describe data: the counts are theirs; a range that is
kept is of the family of the kind and rules none of them out; and digests that are kept include
theirs. -/
structure Describes (c : ColumnCollector) (kind : Kind) (data : List Datum) : Prop where
  rows : c.rows = data.length
  nonNull : c.nonNull = data.countP (!·.isNull)
  unranged : c.ranged = false → c.range = none
  family : ∀ r, c.range = some r → r.family = kind.family
  covered : c.ranged = true → ∀ d ∈ data, d.isNull = false → ∃ r, c.range = some r ∧
    r.mayContain d = true
  digests : ∀ digests, c.digests = some digests →
    ∀ d ∈ data, ∀ key, d.digestKey? = some key → BloomScheme.digest key ∈ digests

omit [BloomScheme] in
/-- **Two ranges of one family** are widened to a range of the family, which rules out what neither
of them may contain only. -/
theorem widen_spec {a b : Option ValueRange} (ha : ∀ r, a = some r → r.family = family)
    (hb : ∀ r, b = some r → r.family = family) :
    (∀ r, widen a b = some r → r.family = family) ∧
      ∀ d, (∃ r, (a = some r ∨ b = some r) ∧ r.mayContain d = true) →
        ∃ r, widen a b = some r ∧ r.mayContain d = true := by
  -- a range that is missing on one side is that of the other
  cases a with
  | none =>
      refine ⟨hb, ?_⟩
      rintro d ⟨r, hr | hr, hmay⟩
      · cases hr
      · exact ⟨r, hr, hmay⟩
  | some a =>
      cases b with
      | none =>
          refine ⟨ha, ?_⟩
          rintro d ⟨r, hr | hr, hmay⟩
          · exact ⟨r, hr, hmay⟩
          · cases hr
      | some b =>
          have hfamily : a.family = b.family := (ha a rfl).trans (hb b rfl).symm
          constructor
          · intro r hr
            cases hr
            rw [ValueRange.family_widen]
            exact ha a rfl
          · rintro d ⟨r, hr, hmay⟩
            refine ⟨a.widen b, rfl, ValueRange.mayContain_widen hfamily ?_⟩
            rcases hr with hr | hr
            · cases hr
              exact .inl hmay
            · cases hr
              exact .inr hmay

omit [BloomScheme] in
/-- A null datum has no digest. -/
theorem digestKey?_of_null (h : d.isNull = true) : d.digestKey? = none := by
  cases d <;> first | rfl | cases h

/-- **One more null** is counted as a row, and nothing else changes. -/
theorem Describes.addNull (h : c.Describes kind data) (hnull : d.isNull = true) :
    (c.add d).Describes kind (data ++ [d]) := by
  rw [ColumnCollector.add, if_pos hnull]
  refine ⟨?_, ?_, h.unranged, h.family, ?_, ?_⟩
  · rw [List.length_append, ← h.rows]
    rfl
  · simp [h.nonNull, hnull]
  · intro hranged d' hd' hsome
    rcases List.mem_append.mp hd' with hd' | hd'
    · exact h.covered hranged d' hd' hsome
    · rw [List.mem_singleton.mp hd', hnull] at hsome
      cases hsome
  · intro digests hdigests d' hd' key hkey
    rcases List.mem_append.mp hd' with hd' | hd'
    · exact h.digests digests hdigests d' hd' key hkey
    · rw [List.mem_singleton.mp hd', digestKey?_of_null hnull] at hkey
      cases hkey

/-- **The digest of one more datum** is in front of those before it, if it has one. -/
theorem digests_add (hnull : d.isNull = false) {digests : List UInt64}
    (h : (c.add d).digests = some digests) :
    ∃ old, c.digests = some old ∧ (∀ x ∈ old, x ∈ digests) ∧
      ∀ key, d.digestKey? = some key → BloomScheme.digest key ∈ digests := by
  rw [ColumnCollector.add, if_neg (by rw [hnull]; exact Bool.false_ne_true)] at h
  dsimp only at h
  cases hkept : c.digests with
  | none =>
      rw [hkept] at h
      cases h
  | some old =>
      rw [hkept] at h
      refine ⟨old, rfl, ?_⟩
      cases hnew : d.digestKey? with
      | none =>
          rw [hnew] at h
          cases h
          exact ⟨fun x hx => hx, fun key hkey => by cases hkey⟩
      | some newKey =>
          rw [hnew] at h
          cases h
          refine ⟨fun x hx => List.mem_cons_of_mem _ hx, ?_⟩
          intro key hkey
          cases hkey
          exact List.mem_cons_self

/-- One more datum is one more row. -/
theorem rows_add (c : ColumnCollector) (d : Datum) : (c.add d).rows = c.rows + 1 := by
  unfold add
  split
  · rfl
  · rfl

/-- **One more datum.** -/
theorem Describes.add (h : c.Describes kind data) (hd : d.InFamily kind.family) :
    (c.add d).Describes kind (data ++ [d]) := by
  cases hnull : d.isNull with
  | true => exact h.addNull hnull
  | false =>
      -- the range of the column is widened by the range of the datum, which is of the family
      obtain ⟨point, hpoint⟩ := ValueRange.exists_of hnull
      obtain ⟨hfamily, hcovered⟩ := widen_spec h.family hd
      have hdigests : ∀ digests, (c.add d).digests = some digests →
          ∀ d' ∈ data ++ [d], ∀ key, d'.digestKey? = some key →
          BloomScheme.digest key ∈ digests := by
        intro digests hadd d' hd' key hkey
        obtain ⟨old, hold, hkeeps, hnew⟩ := digests_add hnull hadd
        rcases List.mem_append.mp hd' with hd' | hd'
        · exact hkeeps _ (h.digests old hold d' hd' key hkey)
        · rw [List.mem_singleton.mp hd'] at hkey
          exact hnew key hkey
      rw [ColumnCollector.add, if_neg (by rw [hnull]; exact Bool.false_ne_true)] at hdigests ⊢
      refine ⟨?_, ?_, ?_, ?_, ?_, hdigests⟩
      · rw [List.length_append, ← h.rows]
        rfl
      · simp [h.nonNull, hnull]
      · intro hranged
        dsimp only at hranged ⊢
        rw [if_neg (by rw [hranged]; exact Bool.false_ne_true)]
        exact h.unranged hranged
      · dsimp only
        split
        · exact hfamily
        · exact h.family
      · intro hranged d' hd' hsome
        dsimp only at hranged ⊢
        rw [if_pos hranged]
        refine hcovered d' ?_
        rcases List.mem_append.mp hd' with hd' | hd'
        · obtain ⟨r, hr, hmay⟩ := h.covered hranged d' hd' hsome
          exact ⟨r, .inl hr, hmay⟩
        · rw [List.mem_singleton.mp hd']
          exact ⟨point, .inr hpoint, ValueRange.mayContain_of hpoint⟩

/-- **The rows of another collector** of the column. -/
theorem Describes.merge (h : c.Describes kind data) (hother : other.Describes kind more) :
    (c.merge other).Describes kind (data ++ more) := by
  -- rows and values are added up; a range holds for both, or neither
  obtain ⟨hfamily, hcovered⟩ := widen_spec h.family hother.family
  rw [ColumnCollector.merge]
  refine ⟨?_, ?_, ?_, ?_, ?_, ?_⟩
  · rw [List.length_append, h.rows, hother.rows]
  · rw [List.countP_append, h.nonNull, hother.nonNull]
  · intro hranged
    dsimp only at hranged ⊢
    rw [if_neg (by rw [hranged]; exact Bool.false_ne_true)]
  · intro r hr
    dsimp only at hr
    split at hr
    · exact hfamily r hr
    · cases hr
  · intro hranged d hd hsome
    dsimp only at hranged ⊢
    rw [if_pos hranged]
    rw [Bool.and_eq_true] at hranged
    refine hcovered d ?_
    rcases List.mem_append.mp hd with hd | hd
    · obtain ⟨r, hr, hmay⟩ := h.covered hranged.1 d hd hsome
      exact ⟨r, .inl hr, hmay⟩
    · obtain ⟨r, hr, hmay⟩ := hother.covered hranged.2 d hd hsome
      exact ⟨r, .inr hr, hmay⟩
  · intro digests hdigests d hd key hkey
    dsimp only at hdigests
    -- keys are kept only when both keep them
    cases hours : c.digests with
    | none =>
        rw [hours] at hdigests
        cases hdigests
    | some ours =>
        cases htheirs : other.digests with
        | none =>
            rw [hours, htheirs] at hdigests
            cases hdigests
        | some theirs =>
            rw [hours, htheirs] at hdigests
            cases hdigests
            rcases List.mem_append.mp hd with hd | hd
            · exact List.mem_append_right _ (h.digests ours hours d hd key hkey)
            · exact List.mem_append_left _ (hother.digests theirs htheirs d hd key hkey)

/-- The order of the data does not matter. -/
theorem Describes.perm (h : c.Describes kind data) (hperm : data.Perm more) :
    c.Describes kind more :=
  ⟨h.rows.trans hperm.length_eq, h.nonNull.trans (hperm.countP_eq _), h.unranged, h.family,
    fun hranged d hd => h.covered hranged d (hperm.mem_iff.mpr hd),
    fun digests hdigests d hd => h.digests digests hdigests d (hperm.mem_iff.mpr hd)⟩

/-- Statistics that keep what they may describe no data. -/
theorem describes_nil (hrows : c.rows = 0) (hnonNull : c.nonNull = 0) (hrange : c.range = none) :
    c.Describes kind [] := by
  refine ⟨hrows, hnonNull, fun _ => hrange, ?_, ?_, ?_⟩
  · intro r hr
    rw [hrange] at hr
    cases hr
  · intro _ d hd
    cases hd
  · intro digests _ d hd
    cases hd

end ColumnCollector

/-- **Finished statistics describe data**: the counts are theirs, and none of them is ruled out. -/
structure ColumnStatistics.Describes (s : ColumnStatistics) (data : List Datum) : Prop where
  rows : s.rows = data.length
  nonNull : s.nonNull = data.countP (!·.isNull)
  mayContain : ∀ d ∈ data, s.mayContain d = true

/-- **The statistics so far** describe the data that were collected. -/
theorem ColumnCollector.Describes.finish {c : ColumnCollector} {kind : Kind} {data : List Datum}
    (h : c.Describes kind data) : c.finish.Describes data := by
  refine ⟨h.rows, h.nonNull, ?_⟩
  intro d hd
  rw [ColumnStatistics.mayContain]
  cases hnull : d.isNull with
  | true =>
      -- a null datum is counted as a row only
      have hlt : data.countP (!·.isNull) < data.length := by
        refine Nat.lt_of_le_of_ne List.countP_le_length ?_
        intro hall
        have hnot := List.countP_eq_length.mp hall d hd
        rw [hnull] at hnot
        cases hnot
      rw [if_pos rfl]
      show decide (c.nonNull < c.rows) = true
      rw [h.nonNull, h.rows, decide_eq_true_eq]
      exact hlt
  | false =>
      have hsome : c.finish.nonNull ≠ 0 := by
        show c.nonNull ≠ 0
        rw [h.nonNull]
        exact Nat.pos_iff_ne_zero.mp (List.countP_pos_iff.mpr ⟨d, hd, by rw [hnull]; rfl⟩)
      rw [if_neg Bool.false_ne_true, if_neg hsome, Bool.and_eq_true]
      constructor
      · show c.range.all _ = true
        cases hranged : c.ranged with
        | true =>
            obtain ⟨r, hr, hmay⟩ := h.covered hranged d hd hnull
            rw [hr]
            exact hmay
        | false =>
            rw [h.unranged hranged]
            rfl
      · show (c.digests.map filterOf).all _ = true
        cases hdigests : c.digests with
        | none => rfl
        | some digests =>
            rw [Option.map_some, Option.all_some, BloomFilter.mightContain]
            cases hkey : d.digestKey? with
            | none => rfl
            | some key => exact contains_filterOf (h.digests digests hdigests d hd key hkey)

/-! ## (2) All columns -/

/-- **The data of a column** in some rows. -/
def columnOf (i : Nat) (rows : List Row) : List Datum := rows.map (·.getD i .null)

/-- **A row suits a schema**: it has a datum for each column, which suits its kind. -/
def Row.Suits (row : Row) (schema : List ColumnSpec) : Prop :=
  row.length = schema.length ∧
    ∀ i spec, schema[i]? = some spec → (row.getD i .null).Suits spec.kind

namespace Collector

variable {s s' other : Collector} {schema : List ColumnSpec} {rows more : List Row} {row : Row}

/-- A row that was counted is as wide as the collector, which keeps its columns. -/
theorem addRow_width (h : s.addRow row = .ok s') :
    row.length = s.columns.length ∧ s'.columns.length = s.columns.length := by
  unfold Collector.addRow at h
  split at h
  · cases h
  · rename_i hwidth
    have hwidth := Classical.not_not.mp hwidth
    cases h
    exact ⟨hwidth, by rw [List.length_zipWith, hwidth, Nat.min_self]⟩

/-- **A row that was not counted** has another width than the collector. -/
theorem addRow_error {e : Fault} (h : s.addRow row = .error e) :
    row.length ≠ s.columns.length ∧ e = .rowWidth row.length s.columns.length := by
  unfold Collector.addRow at h
  split at h
  · rename_i hwidth
    cases h
    exact ⟨hwidth, rfl⟩
  · cases h

/-- A collector that has columns is another one with one more row. -/
theorem addRow_ne (h : s.addRow row = .ok s') (hsome : s.columns ≠ []) : s' ≠ s := by
  have hwidth := (addRow_width h).1
  rw [addRow, if_neg fun hne => hne hwidth] at h
  cases h
  obtain ⟨c, columns, hcolumns⟩ := List.exists_cons_of_ne_nil hsome
  rw [hcolumns] at hwidth
  obtain ⟨d, row', rfl⟩ : ∃ d row', row = d :: row' :=
    List.exists_cons_of_ne_nil fun hnil => absurd (hnil ▸ hwidth) (Nat.succ_ne_zero _).symm
  intro hsame
  -- the first column has counted one row more
  have hfirst := congrArg (fun s : Collector => s.columns.head?.map ColumnCollector.rows) hsame
  dsimp only at hfirst
  rw [hcolumns, List.zipWith_cons_cons, List.head?_cons, List.head?_cons, Option.map_some,
    Option.map_some, ColumnCollector.rows_add] at hfirst
  exact Nat.succ_ne_self c.rows (Option.some.inj hfirst)

omit [BloomScheme] in
/-- A collector that another one is merged into keeps its columns. -/
theorem merge_width (h : s.merge other = .ok s') : s'.columns.length = s.columns.length := by
  unfold Collector.merge at h
  split at h
  · cases h
  · rename_i hwidth
    cases h
    rw [List.length_zipWith, Classical.not_not.mp hwidth, Nat.min_self]

/-- **A collector describes rows**: it has the columns of a schema, and each describes its data. -/
structure Describes (s : Collector) (schema : List ColumnSpec) (rows : List Row) : Prop where
  width : s.columns.length = schema.length
  columns : ∀ i (c : ColumnCollector) spec, s.columns[i]? = some c → schema[i]? = some spec →
    c.Describes spec.kind (columnOf i rows)

/-- **A collector without rows.** -/
theorem new_describes (schema : List ColumnSpec) (ranged digested : List String) :
    (new schema ranged digested).Describes schema [] := by
  refine ⟨List.length_map _, ?_⟩
  intro i c spec hc _
  rw [new, List.getElem?_map] at hc
  obtain ⟨spec', -, rfl⟩ := Option.map_eq_some_iff.mp hc
  exact ColumnCollector.describes_nil rfl rfl rfl

/-- **One more row.** -/
theorem Describes.addRow (h : s.Describes schema rows) (hrow : row.Suits schema)
    (hadd : s.addRow row = .ok s') : s'.Describes schema (rows ++ [row]) := by
  refine ⟨(addRow_width hadd).2.trans h.width, ?_⟩
  unfold Collector.addRow at hadd
  split at hadd
  · cases hadd
  · cases hadd
    intro i c spec hc hspec
    obtain ⟨c', d, hc', hd, rfl⟩ := List.getElem?_zipWith_eq_some.mp hc
    have hsuits := hrow.2 i spec hspec
    rw [List.getD_eq_getElem?_getD, hd] at hsuits
    have hdata : columnOf i (rows ++ [row]) = columnOf i rows ++ [d] := by
      rw [columnOf, List.map_append, List.map_singleton, List.getD_eq_getElem?_getD, hd]
      rfl
    rw [hdata]
    exact (h.columns i c' spec hc' hspec).add hsuits.inFamily

/-- **A row that suits the schema** is counted. -/
theorem Describes.addRow_total (h : s.Describes schema rows) (hrow : row.Suits schema) :
    ∃ s', s.addRow row = .ok s' := by
  rw [Collector.addRow, if_neg (by rw [hrow.1, h.width]; exact fun h => h rfl)]
  exact ⟨_, rfl⟩

/-- **The rows of another collector.** -/
theorem Describes.merge (h : s.Describes schema rows) (hother : other.Describes schema more)
    (hmerge : s.merge other = .ok s') : s'.Describes schema (rows ++ more) := by
  refine ⟨(merge_width hmerge).trans h.width, ?_⟩
  unfold Collector.merge at hmerge
  split at hmerge
  · cases hmerge
  · cases hmerge
    intro i c spec hc hspec
    obtain ⟨ours, theirs, hours, htheirs, rfl⟩ := List.getElem?_zipWith_eq_some.mp hc
    have hdata : columnOf i (rows ++ more) = columnOf i rows ++ columnOf i more := List.map_append
    rw [hdata]
    exact (h.columns i ours spec hours hspec).merge (hother.columns i theirs spec htheirs hspec)

/-- The order of the rows does not matter. -/
theorem Describes.perm (h : s.Describes schema rows) (hperm : rows.Perm more) :
    s.Describes schema more :=
  ⟨h.width, fun i c spec hc hspec => (h.columns i c spec hc hspec).perm (hperm.map _)⟩

/-- **A collector that begins anew.** -/
theorem Describes.reset (h : s.Describes schema rows) : s.reset.Describes schema [] := by
  refine ⟨(List.length_map _).trans h.width, ?_⟩
  intro i c spec hc _
  rw [Collector.reset, List.getElem?_map] at hc
  obtain ⟨c', -, rfl⟩ := Option.map_eq_some_iff.mp hc
  exact ColumnCollector.describes_nil rfl rfl rfl

end Collector

/-- **Finished statistics of all columns** describe rows. -/
structure StatisticsDescribe (statistics : List ColumnStatistics) (schema : List ColumnSpec)
    (rows : List Row) : Prop where
  width : statistics.length = schema.length
  columns : ∀ i (s : ColumnStatistics), statistics[i]? = some s → s.Describes (columnOf i rows)

/-- **The statistics so far** describe the rows that were collected. -/
theorem Collector.Describes.finish {s : Collector} {schema : List ColumnSpec} {rows : List Row}
    (h : s.Describes schema rows) : StatisticsDescribe s.finish schema rows := by
  refine ⟨(List.length_map _).trans h.width, ?_⟩
  intro i stat hstat
  rw [Collector.finish, List.getElem?_map] at hstat
  obtain ⟨c, hc, rfl⟩ := Option.map_eq_some_iff.mp hstat
  have hi : i < schema.length := by
    rw [← h.width]
    exact (List.getElem?_eq_some_iff.mp hc).1
  exact (h.columns i c _ hc (List.getElem?_eq_getElem hi)).finish

end ColumnFile
