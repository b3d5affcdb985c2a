import ColumnFile.Proofs.Store.Basic
import ColumnFile.Proofs.Writer.Steps

/-! # What steps of a writer leave when they fail

A step that failed is taken apart: where it failed, and what the steps before have left behind.

* **`Writer.putData_failed`**, **`Writer.putToast_failed`** — what was not put into files, and why;
  **`Writer.putStripe_failed`** — a stripe that was not; **`Writer.count_failed`** — which
  statistics rejected a row.
* **`Writer.Strays`**, **`Writer.write_failed`** — a row that was not written.
* **`Writer.write_counted`** — a row that was counted, whether the flush behind it failed or not.
* **`Writer.Ends`**, **`Writer.close_cases`** — how far a close came. -/

namespace ColumnFile.Writer

open Writing

variable [Library] {ws ws' : Workspace} {e : Fault} {stripe values : Bytes} {row : Row}

/-! ## (1) What is put into files, and what is counted -/

/-- **The sink of the log refuses** the next stripe. -/
def Refuses (w : Writer) (e : Fault) : Prop :=
  w.options.log = true ∧ ∃ sink, w.sink = some sink ∧ sink.refusal sink.calls = some e

omit [Library] in
/-- **A stripe that was not logged**: only the sink may have changed. There is no sink, or it
refuses. -/
theorem logStripe_failed (h : runAt (logStripe stripe) ws = (.error e, ws')) :
    (∃ sink, ws' = { ws with writer := { ws.writer with sink } }) ∧
      (e = .noLogSink ∨ ws.writer.Refuses e) := by
  unfold logStripe at h
  have h := writer_ok h
  by_cases hlog : ws.writer.options.log = true
  · rw [if_pos hlog] at h
    cases hsink : ws.writer.sink with
    | none =>
        rw [hsink] at h
        cases h
        exact ⟨⟨none, by rw [← hsink]⟩, .inl rfl⟩
    | some sink =>
        rw [hsink] at h
        have h := setWriter_ok h
        cases hrefusal : sink.refusal sink.calls with
        | some e' =>
            rw [hrefusal] at h
            cases h
            exact ⟨⟨_, rfl⟩, .inr ⟨hlog, sink, hsink, hrefusal⟩⟩
        | none =>
            rw [hrefusal] at h
            cases h
  · rw [if_neg hlog] at h
    cases h

omit [Library] in
/-- **Octets that were not put** change no file: the stripe was not logged, or it was and there is
no file to put it into. -/
theorem putData_failed (h : runAt (putData stripe) ws = (.error e, ws')) :
    (∃ sink log, ws' =
      { writer := { ws.writer with sink }, archive := { ws.archive with log } }) ∧
      (e = .noLogSink ∨ ws.writer.Refuses e ∨ e = .noOpenFile) := by
  unfold putData at h
  rcases bind_error h with hlog | ⟨⟨⟩, w₁, hlog, h⟩
  · obtain ⟨⟨sink, rfl⟩, hcause⟩ := logStripe_failed hlog
    exact ⟨⟨sink, ws.archive.log, rfl⟩, hcause.imp_right .inl⟩
  · obtain ⟨sink, log, rfl⟩ := logStripe_ok hlog
    have h := writer_ok h
    cases hfile : ws.writer.file with
    | none =>
        rw [hfile] at h
        cases h
        exact ⟨⟨sink, log, rfl⟩, .inr (.inr rfl)⟩
    | some file =>
        rw [hfile] at h
        cases h

omit [Library] in
/-- **Values out of line that were not put** change nothing: there is no file for them. -/
theorem putToast_failed (h : runAt (putToast values) ws = (.error e, ws')) :
    ws' = ws ∧ e = .toastWithoutFile := by
  unfold putToast at h
  have h := writer_ok h
  by_cases hsome : (!values.isEmpty) = true
  · rw [if_pos hsome] at h
    cases htoast : ws.writer.toastFile with
    | none =>
        rw [htoast] at h
        cases h
        exact ⟨rfl, rfl⟩
    | some t =>
        rw [htoast] at h
        cases h
  · rw [if_neg hsome] at h
    cases h

/-- **A row that was not counted**: it was rejected by the statistics of the next stripe, or by
those of the file, or by those for the summary; those before have counted it. -/
theorem count_failed (h : runAt (count row) ws = (.error e, ws')) :
    (ws.writer.stripeStatistics.addRow row = .error e ∧ ws' = ws) ∨
    (∃ stripeStatistics, ws.writer.stripeStatistics.addRow row = .ok stripeStatistics ∧
      ws.writer.fileStatistics.addRow row = .error e ∧
      ws' = { ws with writer := { ws.writer with stripeStatistics } }) ∨
    ∃ stripeStatistics fileStatistics summary, ws.writer.stripeStatistics.addRow row =
      .ok stripeStatistics ∧
      ws.writer.fileStatistics.addRow row = .ok fileStatistics ∧
      ws.writer.summaryStatistics = some summary ∧ summary.addRow row = .error e ∧
      ws' = { ws with writer := { ws.writer with stripeStatistics, fileStatistics } } := by
  unfold count at h
  have h := writer_ok h
  -- of the collectors, those up to the failing one have counted the row
  rcases lift_error h with ⟨hstripe, rfl⟩ | ⟨stripeStatistics, hstripe, h⟩
  · exact .inl ⟨hstripe, rfl⟩
  have h := setWriter_ok h
  rcases lift_error h with ⟨hfile, rfl⟩ | ⟨fileStatistics, hfile, h⟩
  · exact .inr (.inl ⟨stripeStatistics, hstripe, hfile, rfl⟩)
  have h := setWriter_ok h
  rcases bind_error h with hsummary | ⟨⟨⟩, w₁, -, h⟩
  · unfold countForSummary at hsummary
    have hsummary := writer_ok hsummary
    dsimp only at hsummary
    cases hkept : ws.writer.summaryStatistics with
    | none =>
        rw [hkept] at hsummary
        cases hsummary
    | some summary =>
        rw [hkept] at hsummary
        rcases lift_error hsummary with ⟨hadd, rfl⟩ | ⟨summary', -, hsummary⟩
        · refine .inr (.inr ⟨stripeStatistics, fileStatistics, summary, hstripe, hfile, rfl,
            hadd, ?_⟩)
          dsimp only
          rw [hkept]
        · cases hsummary
  · cases h

/-- **Columns that were not put** as a stripe: nothing changed, or their values out of line were put
and the octets were not. -/
theorem putStripe_failed {columns : ColumnSet} {statistics : List ColumnStatistics}
    (h : runAt (putStripe columns statistics) ws = (.error e, ws')) :
    ws' = ws ∨ ∃ values stripe w₁, runAt (putToast values) ws = (.ok (), w₁) ∧
      runAt (putData stripe) w₁ = (.error e, ws') := by
  unfold putStripe at h
  generalize columns.serialize = result at h
  obtain ⟨image, encoded⟩ := result
  dsimp only at h
  rcases lift_error h with ⟨-, rfl⟩ | ⟨image, -, h⟩
  · exact .inl rfl
  rcases bind_error h with htoast | ⟨⟨⟩, w₁, htoast, h⟩
  · exact .inl (putToast_failed htoast).1
  rcases bind_error h with hdata | ⟨⟨⟩, w₂, -, h⟩
  · exact .inr ⟨_, _, w₁, htoast, hdata⟩
  · cases setWriter_ok h

/-! ## (2) Rows -/

omit [Library] in
/-- **A row went astray**: only some columns have it; or they all do, but it was not counted. -/
def Strays (row : Row) (e : Fault) (w w' : Workspace) : Prop :=
  row.length = w.writer.options.schema.length ∧ ∃ values columns,
    storedRow w.writer.options.schema row = .ok values ∧
    ((appendValues w.writer.options.toastThreshold w.writer.columns values = (.error e, columns) ∧
        w' = { w with writer := { w.writer with columns } }) ∨
      (appendValues w.writer.options.toastThreshold w.writer.columns values = (.ok (), columns) ∧
        runAt (count row) { w with writer := { w.writer with columns } } = (.error e, w')))

/-- **A row whose values were stored**, but that was not written: it went astray, or it was taken
and the flush behind it failed. -/
theorem write_begun (hopen : ws.writer.closed = false)
    (hwidth : row.length = ws.writer.options.schema.length) {values : List (Option Bytes)}
    (hvalues : storedRow ws.writer.options.schema row = .ok values)
    (h : runAt (write row) ws = (.error e, ws')) : Strays row e ws ws' ∨
    Takes row (.error e) ws ws' := by
  unfold write at h
  have h := writer_ok h
  have hcheck : ws.writer.checkOpen = .ok () := by rw [checkOpen, hopen]; rfl
  rw [hcheck, hvalues] at h
  rcases lift_error h with ⟨hclosed, -⟩ | ⟨⟨⟩, -, h⟩
  · cases hclosed
  rw [if_neg (by exact fun hne => hne hwidth)] at h
  rcases lift_error h with ⟨hnone, -⟩ | ⟨_, hsame, h⟩
  · cases hnone
  cases hsame
  -- up to here nothing has changed
  generalize happend : appendValues _ _ _ = result at h
  obtain ⟨appended, columns⟩ := result
  dsimp only at h
  have h := setWriter_ok h
  rcases lift_error h with ⟨happended, rfl⟩ | ⟨⟨⟩, happended, h⟩
  · rw [happended] at happend
    exact .inl ⟨hwidth, values, columns, hvalues, .inl ⟨happend, rfl⟩⟩
  -- from here on the row is in the columns
  rw [happended] at happend
  rcases bind_error h with hcount | ⟨⟨⟩, w₁, hcount, h⟩
  · exact .inl ⟨hwidth, values, columns, hvalues, .inr ⟨happend, hcount⟩⟩
  refine .inr ⟨hwidth, values, columns, w₁, hvalues, happend, hcount, .inr ?_⟩
  by_cases hfull : ws.writer.options.groupLimit ≤ columns.rows
  · rw [if_pos hfull] at h
    exact ⟨hfull, h⟩
  · rw [if_neg hfull] at h
    cases h

/-- **A row that was not written**: nothing changed, or it went astray, or it was taken and the
flush behind it failed. -/
theorem write_failed (h : runAt (write row) ws = (.error e, ws')) :
    ws' = ws ∨ Strays row e ws ws' ∨ Takes row (.error e) ws ws' := by
  have hwrite := h
  unfold write at h
  have h := writer_ok h
  rcases lift_error h with ⟨-, rfl⟩ | ⟨⟨⟩, hopen, h⟩
  · exact .inl rfl
  by_cases hwidth : row.length ≠ ws.writer.options.schema.length
  · rw [if_pos hwidth] at h
    cases h
    exact .inl rfl
  rw [if_neg hwidth] at h
  rcases lift_error h with ⟨-, rfl⟩ | ⟨values, hvalues, -⟩
  · exact .inl rfl
  · exact .inr (write_begun (checkOpen_ok hopen) (Classical.not_not.mp hwidth) hvalues hwrite)

/-- **A row that was counted** was taken, whether the flush behind it failed or not. -/
theorem write_counted {outcome : Except Fault Unit} (h : runAt (write row) ws = (outcome, ws'))
    (hcounted : ws'.writer.tuples = ws.writer.tuples + 1) : Takes row outcome ws ws' := by
  cases outcome with
  | ok u => exact (write_ok h).2
  | error e =>
      have huncounted : ws'.writer.tuples ≠ ws.writer.tuples := by omega
      rcases write_failed h with rfl | ⟨-, values, columns, -, ⟨-, rfl⟩ | ⟨-, hcount⟩⟩ | htakes
      · exact absurd rfl huncounted
      · exact absurd rfl huncounted
      · rcases count_failed hcount with ⟨-, rfl⟩ | ⟨_, -, -, rfl⟩ | ⟨_, _, _, -, -, -, -, rfl⟩
        all_goals exact absurd rfl huncounted
      · exact htakes

/-! ## (3) The end of a file -/

variable {outcome : Except Fault Unit}

omit [Library] in
/-- **A writer that lets go** of its file of values deletes at most a path. -/
theorem closeToast_left (h : runAt closeToast ws = (outcome, ws')) :
    ∃ store, ws' =
      { writer := { ws.writer with toastFile := none }, archive := { ws.archive with store } } ∧
      store.contents = ws.archive.store.contents ∧ store.foreign = ws.archive.store.foreign := by
  unfold closeToast at h
  have h := setWriter_ok (writer_ok h)
  by_cases hempty : ws.writer.toastFile.isSome ∧ ws.writer.toastOffset = 0
  · rw [if_pos hempty] at h
    have h := store_ok h
    cases hdelete : ws.archive.store.delete ws.writer.options.toastFileName with
    | error e =>
        rw [hdelete] at h
        cases h
        exact ⟨_, rfl, rfl, rfl⟩
    | ok store =>
        rw [hdelete] at h
        cases h
        obtain ⟨hcontents, hforeign⟩ := Store.contents_delete hdelete
        exact ⟨store, rfl, hcontents, hforeign⟩
  · rw [if_neg hempty] at h
    cases h
    exact ⟨_, rfl, rfl, rfl⟩

omit [Library] in
/-- **A writer ends its file**: the footer is written behind the stripes, and the writer lets go of
its files; it is closed then, unless something behind that failed. A writer that has no file stays
without one. -/
def Ends (ws ws' : Workspace) : Prop :=
  (ws.writer.file = none ∧ ws' = { ws with writer := { ws.writer with file := none } }) ∨
  ∃ file store closed summaries, ws.writer.file = some file ∧
    ws' =
      { writer := { ws.writer with file := none, toastFile := none, closed }
        archive := { ws.archive with store, summaries } } ∧
    store.contents =
      (ws.archive.store.write file ws.writer.offset (tail ws.writer.footer)).contents ∧
    store.foreign = (ws.archive.store.write file ws.writer.offset (tail ws.writer.footer)).foreign

/-- **A close, whatever comes of it**: there was nothing to do, or the flush failed, or the file was
ended. -/
theorem close_cases (h : runAt close ws = (outcome, ws')) :
    (ws.writer.closed = true ∧ outcome = .ok () ∧ ws' = ws) ∨
      (∃ e, outcome = .error e ∧ runAt flush ws = (.error e, ws')) ∨
      ∃ w₁, runAt flush ws = (.ok (), w₁) ∧ Ends w₁ ws' := by
  unfold close at h
  have h := writer_ok h
  -- a closed writer has nothing to do
  cases hclosed : ws.writer.closed with
  | true =>
      rw [hclosed] at h
      cases h
      exact .inl ⟨rfl, rfl, rfl⟩
  | false =>
      rw [hclosed, Bool.not_false, if_pos rfl] at h
      rcases bind_cases h with ⟨e, hflush, rfl⟩ | ⟨⟨⟩, w₁, hflush, h⟩
      · exact .inr (.inl ⟨e, rfl, hflush⟩)
      refine .inr (.inr ⟨w₁, hflush, ?_⟩)
      have h := setWriter_ok (writer_ok h)
      -- a close that broke off may have let go of the file
      cases hfile : w₁.writer.file with
      | none =>
          rw [hfile] at h
          cases h
          exact .inl ⟨hfile, rfl⟩
      | some file =>
          rw [hfile] at h
          have h := setStore_ok h
          rcases bind_cases h with ⟨e, htoast, -⟩ | ⟨⟨⟩, w₂, htoast, h⟩
          · obtain ⟨store, rfl, hstore⟩ := closeToast_left htoast
            exact .inr ⟨file, store, _, _, hfile, rfl, hstore⟩
          · obtain ⟨store, rfl, hstore⟩ := closeToast_left htoast
            cases h
            exact .inr ⟨file, store, _, _, hfile, rfl, hstore⟩

end ColumnFile.Writer
