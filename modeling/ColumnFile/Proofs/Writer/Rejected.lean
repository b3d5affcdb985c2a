import ColumnFile.Proofs.Stripe.Faults
import ColumnFile.Proofs.Writer.Shape

/-! # Rows that are rejected

A row is held against the schema before anything changes, so one that does not suit it leaves the
writer as it was. A row that suits it is rejected only after it was appended: by the statistics for
the summary, which come from outside and may have another width, or by the flush behind it.

* **`Writer.count_rejected`**, **`Writer.putStripe_rejected`** — the steps that can still disagree.
* **`Writer.Miscounted`**, **`Writer.Unflushed`** — what such a row leaves.
* **`Writer.write_rejected`** — a rejected row leaves everything as it was exactly when it does not
  suit the schema. -/

namespace ColumnFile.Writer

open Writing

variable {ws ws' : Workspace} {e : Fault} {row : Row}

/-! ## (1) Steps that do not disagree with a schema -/

/-- One more value of a column may find no room, but it has a place in the schema. -/
theorem appendValue_error {threshold : Option Nat} {c : Column} {value : Option Bytes}
    (h : (appendValue threshold c value).1 = .error e) : e.cls ≠ .schema := by
  unfold appendValue at h
  cases value with
  | none => exact Column.appendNull_error h
  | some bs =>
      cases threshold with
      | none => exact Column.append_error h
      | some limit =>
          dsimp only at h
          split at h
          · exact Column.appendToast_error h
          · exact Column.append_error h

/-- One more value of each column from a place on, when there are columns for all of them. -/
theorem appendFrom_error {threshold : Option Nat} {s : ColumnSet} {i : Nat}
    {values : List (Option Bytes)} (hwidth : i + values.length ≤ s.columns.length)
    (h : (Attempt.all (fun s (value, i) => s.modify i fun c => appendValue threshold c value)
      (values.zipIdx i) s).1 = .error e) : e.cls ≠ .schema := by
  induction values generalizing s i with
  | nil => cases h
  | cons value values ih =>
      rw [List.length_cons] at hwidth
      have hlength := length_modify s i fun c => appendValue threshold c value
      rw [List.zipIdx_cons, Attempt.all] at h
      dsimp only at h
      split at h
      · -- there are as many columns as before, so the next value has a place too
        rename_i s₁ hstep
        rw [hstep] at hlength
        exact ih (by rw [hlength]; omega) h
      · rename_i e' s₁ hstep
        cases h
        obtain ⟨c, hc⟩ : ∃ c, s.columns[i]? = some c :=
          ⟨_, List.getElem?_eq_getElem (show i < s.columns.length by omega)⟩
        rw [ColumnSet.modify, hc] at hstep
        exact appendValue_error (congrArg Prod.fst hstep)

/-- **Columns that were not put** as a stripe: that disagrees with the schema only if the sink of
the log says so, or if they are not of one length. -/
theorem putStripe_rejected [Library] (hlibrary : BlockLibrary.Classed) {columns : ColumnSet}
    {statistics : List ColumnStatistics}
    (h : runAt (putStripe columns statistics) ws = (.error e, ws')) (hschema : e.cls = .schema) :
    ws.writer.Refuses e ∨ ∃ c ∈ columns.columns, c.rows ≠ columns.rows ∧
    e = .stripeRows c.rows columns.rows := by
  unfold putStripe at h
  generalize hserialize : columns.serialize = result at h
  obtain ⟨image, encoded⟩ := result
  dsimp only at h
  rcases lift_error h with ⟨himage, -⟩ | ⟨image', -, h⟩
  · right
    rw [himage] at hserialize
    exact ColumnSet.serialize_error hlibrary (congrArg Prod.fst hserialize) hschema
  left
  rcases bind_error h with htoast | ⟨⟨⟩, w₁, htoast, h⟩
  · cases (putToast_failed htoast).2
    cases hschema
  -- the values out of line do not concern the sink
  have hsame : w₁.writer = ws.writer := by
    rcases putToast_ok htoast with ⟨-, rfl⟩ | ⟨t, -, -, rfl⟩
    · rfl
    · rfl
  rcases bind_error h with hdata | ⟨⟨⟩, w₂, -, h⟩
  · rcases (putData_failed hdata).2 with rfl | hrefuses | rfl
    · cases hschema
    · exact hsame ▸ hrefuses
    · cases hschema
  · cases h

/-! ## (2) What a rejected row leaves -/

variable [Library]

/-- **A row was miscounted**: it is in the columns, in the statistics of the next stripe and in
those of the file, and then the statistics for the summary rejected it, since they are of another
width. It is not counted as a row of the file, and it was not flushed. -/
structure Miscounted (row : Row) (e : Fault) (ws ws' : Workspace) : Prop where
  rejected : ∃ summary, ws.writer.summaryStatistics = some summary ∧
    row.length ≠ summary.columns.length ∧ e = .rowWidth row.length summary.columns.length
  kept : ∃ values columns stripeStatistics fileStatistics,
    storedRow ws.writer.options.schema row = .ok values ∧
    appendValues ws.writer.options.toastThreshold ws.writer.columns values = (.ok (), columns) ∧
    ws.writer.stripeStatistics.addRow row = .ok stripeStatistics ∧
    ws.writer.fileStatistics.addRow row = .ok fileStatistics ∧
    ws' = { ws with writer := { ws.writer with columns, stripeStatistics, fileStatistics } }

/-- **A row that suits the schema was not counted**: the statistics for the summary are of another
width. -/
theorem count_rejected (h : runAt (count row) ws = (.error e, ws')) (hshaped : ws.writer.Shaped)
    (hwidth : row.length = ws.writer.options.schema.length) :
    (∃ summary, ws.writer.summaryStatistics = some summary ∧ row.length ≠ summary.columns.length ∧
      e = .rowWidth row.length summary.columns.length) ∧
    ∃ stripeStatistics fileStatistics, ws.writer.stripeStatistics.addRow row =
      .ok stripeStatistics ∧
      ws.writer.fileStatistics.addRow row = .ok fileStatistics ∧
      ws' = { ws with writer := { ws.writer with stripeStatistics, fileStatistics } } := by
  rcases count_failed h with ⟨hstripe, -⟩ | ⟨stripeStatistics, -, hfile, -⟩ |
    ⟨stripeStatistics, fileStatistics, summary, hstripe, hfile, hkept, hsummary, rfl⟩
  · exact absurd (hwidth.trans hshaped.stripe.symm) (Collector.addRow_error hstripe).1
  · exact absurd (hwidth.trans hshaped.file.symm) (Collector.addRow_error hfile).1
  · exact ⟨⟨summary, hkept, Collector.addRow_error hsummary⟩, stripeStatistics, fileStatistics,
      hstripe, hfile, rfl⟩

/-- **A row was not flushed**: it was appended and counted everywhere, and then the flush behind it
failed, because the sink of the log disagreed or because some columns had missed a row before. -/
structure Unflushed (row : Row) (e : Fault) (ws ws' : Workspace) : Prop where
  taken : ∃ values columns w₁, storedRow ws.writer.options.schema row = .ok values ∧
    appendValues ws.writer.options.toastThreshold ws.writer.columns values = (.ok (), columns) ∧
    runAt (count row) { ws with writer := { ws.writer with columns } } = (.ok (), w₁) ∧
    ws.writer.options.groupLimit ≤ columns.rows ∧ runAt flush w₁ = (.error e, ws') ∧
    (ws.writer.Refuses e ∨ ∃ c ∈ columns.columns, c.rows ≠ columns.rows ∧
      e = .stripeRows c.rows columns.rows)

/-- A row that was miscounted has changed the statistics of the file. -/
theorem Miscounted.changed (h : Miscounted row e ws ws') (hshaped : ws.writer.Shaped) :
    ws' ≠ ws := by
  obtain ⟨-, -, -, fileStatistics, -, -, -, hfile, rfl⟩ := h.kept
  have hsome : ws.writer.fileStatistics.columns ≠ [] := by
    intro hnil
    have hwidth := hshaped.file
    rw [hnil] at hwidth
    exact (WriterOptions.validate_ok hshaped.valid).1 (List.length_eq_zero_iff.mp hwidth.symm)
  intro hsame
  exact Collector.addRow_ne hfile hsome
    (congrArg (fun ws : Workspace => ws.writer.fileStatistics) hsame)

/-- A row that was not flushed was counted. -/
theorem Unflushed.changed (h : Unflushed row e ws ws') : ws' ≠ ws := by
  obtain ⟨values, columns, w₁, -, -, hcount, -, hflush, -⟩ := h.taken
  have hcounted : w₁.writer.tuples = ws.writer.tuples + 1 := by
    obtain ⟨-, -, -, -, -, -, rfl⟩ := count_ok hcount
    rfl
  have hkept : ws'.writer.tuples = w₁.writer.tuples := by
    obtain ⟨_, _, -, -, hlays⟩ := flush_lays hflush
    obtain ⟨offset, toastOffset, stripes, sink, hwriter⟩ := hlays.writer
    rw [hwriter]
  intro hsame
  rw [hsame] at hkept
  omega

/-- **A row that was taken** and is rejected all the same was not flushed. -/
theorem unflushed_of_takes (hlibrary : BlockLibrary.Classed) (hshaped : ws.writer.Shaped)
    (hopen : ws.writer.closed = false) (h : Takes row (.error e) ws ws')
    (hschema : e.cls = .schema) :
    Unflushed row e ws ws' := by
  obtain ⟨-, values, columns, w₁, hvalues, happend, hcount, ⟨-, hnone, -⟩ | ⟨hfull, hflush⟩⟩ := h
  · cases hnone
  refine ⟨values, columns, w₁, hvalues, happend, hcount, hfull, hflush, ?_⟩
  -- a row that is counted changes nothing that a flush depends on
  have hkept : w₁.writer.closed = ws.writer.closed ∧ w₁.writer.options = ws.writer.options ∧
      w₁.writer.sink = ws.writer.sink ∧ w₁.writer.columns = columns := by
    obtain ⟨-, -, -, -, -, -, rfl⟩ := count_ok hcount
    exact ⟨rfl, rfl, rfl, rfl⟩
  obtain ⟨hclosed, hoptions, hsink, hcolumns⟩ := hkept
  obtain ⟨fresh, -, hput⟩ := flush_failed (hclosed.trans hopen) (hoptions ▸ hshaped.valid) hflush
  have hcause := putStripe_rejected hlibrary hput hschema
  rw [Refuses] at hcause ⊢
  dsimp only at hcause
  rw [hoptions, hsink, hcolumns] at hcause
  exact hcause

/-- **A row that does not suit the schema** changes nothing when it fails. -/
theorem untouched_of_not_suits (h : runAt (write row) ws = (.error e, ws'))
    (hsuits : ¬ row.Suits ws.writer.options.schema) : ws' = ws := by
  rcases write_failed h with hsame | ⟨hwidth, values, columns, hvalues, -⟩ |
    ⟨hwidth, values, columns, w₁, hvalues, -⟩
  · exact hsame
  · exact absurd (suits_of_storedRow hvalues hwidth) hsuits
  · exact absurd (suits_of_storedRow hvalues hwidth) hsuits

/-- **A row that suits the schema** and is rejected was miscounted, or it was not flushed. -/
theorem rejected_of_suits (hlibrary : BlockLibrary.Classed) (hshaped : ws.writer.Shaped)
    (h : runAt (write row) ws = (.error e, ws')) (hschema : e.cls = .schema)
    (hsuits : row.Suits ws.writer.options.schema) : Miscounted row e ws ws' ∨
    Unflushed row e ws ws' := by
  have hopen : ws.writer.closed = false := by
    rw [← Bool.not_eq_true]
    intro hclosed
    rw [write] at h
    have h := writer_ok h
    rw [checkOpen, if_pos hclosed] at h
    cases h
    cases hschema
  obtain ⟨values, hvalues⟩ := storedRow_total hsuits
  rcases write_begun hopen hsuits.1 hvalues h with hstrays | htakes
  · obtain ⟨hwidth, values, columns, hvalues, ⟨happend, -⟩ | ⟨happend, hcount⟩⟩ := hstrays
    · -- a value that finds no room does not disagree with a schema
      refine absurd hschema (appendFrom_error (i := 0) ?_ (congrArg Prod.fst happend))
      rw [(storedRow_spec hvalues hwidth).1, Nat.zero_add]
      exact Nat.le_of_eq hshaped.columns.symm
    · obtain ⟨hsummary, stripeStatistics, fileStatistics, hstripe, hfile, rfl⟩ :=
        count_rejected hcount (hshaped.appended happend) hwidth
      exact .inl ⟨hsummary, values, columns, _, _, hvalues, happend, hstripe, hfile, rfl⟩
  · exact .inr (unflushed_of_takes hlibrary hshaped hopen htakes hschema)

/-- **A rejected row.** Any number of writers are made, take rows, are flushed, merged and closed,
get sinks and statistics for their summaries of any width, and whatever fails. When a row is
rejected then because it disagrees with a schema, everything is left as it was exactly when the row
does not suit the schema of the writer. If it does suit it, the row was miscounted, or it was not
flushed. -/
theorem write_rejected (hlibrary : BlockLibrary.Classed) {archive : Archive} {crew : Crew}
    (h : Relation.ReflTransGen Turn (.start archive) crew) {i : Nat} {w : Writer}
    (hmember : crew.member i = some w)
    (hstep : runAt (write row) { writer := w, archive := crew.archive } = (.error e, ws'))
    (hschema : e.cls = .schema) :
    (ws' = { writer := w, archive := crew.archive } ↔ ¬ row.Suits w.options.schema) ∧
      (row.Suits w.options.schema → Miscounted row e { writer := w, archive := crew.archive } ws' ∨
        Unflushed row e { writer := w, archive := crew.archive } ws') := by
  have hshaped : w.Shaped := shaped_of_turns h i w hmember
  have hrejected := rejected_of_suits hlibrary hshaped hstep hschema
  refine ⟨⟨?_, untouched_of_not_suits hstep⟩, hrejected⟩
  intro hsame hsuits
  rcases hrejected hsuits with hmiscounted | hunflushed
  · exact hmiscounted.changed hshaped hsame
  · exact hunflushed.changed hsame

omit [Library] in
/-- A row of one text suits the schema, and the statistics for the summary, which have no columns,
reject it: it stays in the columns, and no row is counted. -/
theorem write_rejected_by_summary :
    ∃ (w : Writer) (store : Store) (ws' : Workspace), create (textColumn "f" none)
      {} = (.ok w, store) ∧
      runAt (@write .verbatim [.ofString "z"])
        { writer := { w with summaryStatistics := some {} }, archive := { store } } =
        (.error (.rowWidth 1 0), ws') ∧
      ws'.writer.buffered = 1 ∧ ws'.writer.tuples = 0 ∧
      ws' ≠ { writer := { w with summaryStatistics := some {} }, archive := { store } } := by
  have hrun : ∃ w store result, create (textColumn "f" none) {} = (.ok w, store) ∧
      result = runAt (@write .verbatim [.ofString "z"])
        { writer := { w with summaryStatistics := some {} }, archive := { store } } ∧
      result.1 = .error (.rowWidth 1 0) ∧ result.2.writer.buffered = 1 ∧
      result.2.writer.tuples = 0 ∧
      w.options = textColumn "f" none :=
    ⟨_, _, _, rfl, rfl, by decide +kernel, by decide +kernel, by decide +kernel, rfl⟩
  obtain ⟨w, store, result, hw, hresult, hresult', hbuffered, htuples, hoptions⟩ := hrun
  have hequipped : Relation.ReflTransGen (@Turn .verbatim) (.start {}) _ :=
    (Relation.ReflTransGen.single (@Turn.create .verbatim (.start {}) _ _ _ 0 hw)).tail
      (@Turn.equip .verbatim _ 0 w w.sink (some {}) rfl)
  obtain ⟨huntouched, -⟩ :=
    @write_rejected _ _ _ .verbatim BlockLibrary.verbatim_classed _ _ hequipped 0 _ rfl
    (runAt_eq hresult hresult') rfl
  have hsuits : Row.Suits [.ofString "z"] w.options.schema := by
    rw [hoptions]
    exact suits_of_storedRow rfl rfl
  exact ⟨w, store, result.2, hw, runAt_eq hresult hresult', hbuffered, htuples,
    fun hsame => huntouched.mp hsame hsuits⟩

end ColumnFile.Writer
