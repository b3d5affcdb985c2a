import ColumnFile.Proofs.Writer.Close

/-! # What was written reads back

Any rows that a writer takes, with flushes in between, are read from its file once it was closed.

* **`Writer.Call`** — what a caller asks of a writer before it closes the file.
* **`Writer.perform_holds`** — a writer holds the rows that it was given in any calls.
* **`Writer.write_roundtrip`** — the rows of a closed file are those that were written, in their
  order. -/

namespace ColumnFile.Writer

open Writing

/-! ## (1) Calls -/

/-- A **call** of a writer. -/
inductive Call
  /-- One more row. -/
  | write (row : Row)
  /-- The rows so far as a stripe. -/
  | flush
deriving DecidableEq, Inhabited

/-- The rows that are written by some calls, in their order. -/
def written (calls : List Call) : List Row :=
  calls.flatMap fun
    | .write row => [row]
    | .flush => []

/-- The row of a call comes before those of the calls behind it. -/
theorem written_cons (call : Call) (calls : List Call) :
    written (call :: calls) = written [call] ++ written calls := by
  rw [written, written, written, List.flatMap_cons, List.flatMap_cons, List.flatMap_nil,
    List.append_nil]

variable [Library] {rows : List Row} {ws ws' : Workspace}

/-- The step that a call asks for. -/
def Call.step : Call → Writing Unit
  | .write row => Writer.write row
  | .flush => Writer.flush

/-- Does what some calls ask for, up to the first that fails. -/
def perform : List Call → Writing Unit
  | [] => pure ()
  | call :: calls => do
    call.step
    perform calls

/-- **A call** adds the rows that it writes. -/
theorem Call.step_holds (hlibrary : BlockLibrary.Restores) {call : Call}
    (hcall : runAt call.step ws = (.ok (), ws')) (h : ws.writer.Holds ws.archive.store rows) :
    Advances ws ws' ∧ ws'.writer.Holds ws'.archive.store (rows ++ written [call]) := by
  cases call with
  | write row => exact write_holds hlibrary h hcall
  | flush =>
      obtain ⟨hadvances, hholds⟩ := flush_holds hlibrary h hcall
      refine ⟨hadvances, ?_⟩
      simpa [written] using hholds

/-- **A writer holds the rows** that it was given in any calls, behind those it held. -/
theorem perform_holds (hlibrary : BlockLibrary.Restores) {calls : List Call}
    (hcalls : runAt (perform calls) ws = (.ok (), ws'))
    (h : ws.writer.Holds ws.archive.store rows) :
    Advances ws ws' ∧ ws'.writer.Holds ws'.archive.store (rows ++ written calls) := by
  induction calls generalizing ws rows with
  | nil =>
      obtain ⟨-, rfl⟩ := pure_ok hcalls
      refine ⟨Advances.refl _, ?_⟩
      simpa [written] using h
  | cons call calls ih =>
      obtain ⟨⟨⟩, w₁, hfirst, hrest⟩ := bind_ok hcalls
      obtain ⟨hadvances, hholds⟩ := Call.step_holds hlibrary hfirst h
      obtain ⟨hadvances', hholds'⟩ := ih hrest hholds
      refine ⟨hadvances.trans hadvances', ?_⟩
      simpa [written] using hholds'

/-! ## (2) Round trip -/

/-- **What was written reads back.** A writer is made for whatever options are valid, in files of
one's own, with or without a sink for the log; it takes rows, with flushes in between, and closes
its file. When all of it succeeds, the file can be opened, and asking for row after row gives the
rows in their order, and then none. The numbers of the file are within the bounds of its messages,
and the library of block compressors restores what it made. -/
theorem write_roundtrip (hlibrary : BlockLibrary.Restores) {store store' : Store}
    (hstore : store.foreign = false) {options : WriterOptions} {w : Writer}
    (hcreate : create options store = (.ok w, store')) (sink : Option LogSink)
    (log : List LogRecord) (summaries : List WriteSummary) {calls : List Call} {ws ws' : Workspace}
    (hcalls : runAt (perform calls)
      { writer := { w with sink }, archive := { store := store', log, summaries } } = (.ok (), ws))
    (hclose : runAt close ws = (.ok (), ws')) (hfits : ws'.writer.Fits) (reading : ReaderOptions)
    (hfilter : reading.filter = none) (hdeleted : reading.deleted = none)
    (hschema : ∀ schema, reading.schema = some schema → schema = options.schema) :
    ∃ r, Reader.ofFile ws'.archive.store options.fileName reading = .ok r ∧
      ∀ k, ((r.after ws'.archive.store (List.replicate k .next)).next ws'.archive.store).1 =
        .ok (written calls)[k]? := by
  obtain ⟨hholds, hbegins⟩ := create_holds hstore hcreate
  obtain ⟨hadvances, hheld⟩ := perform_holds hlibrary hcalls (hholds.withSink sink)
  have hoptions : ws.writer.options = options := hadvances.options.trans hbegins.chosen
  have hleads : ws.writer.Leads ws.archive.store := by
    refine hadvances.leads ⟨?_, ?_⟩
    · show store'.find? w.options.fileName = w.file
      rw [hbegins.chosen]
      exact hbegins.path
    · show w.toastFile ≠ none → store'.find? w.options.toastFileName = w.toastFile
      rw [hbegins.chosen]
      exact hbegins.toastPath
  rw [← hoptions] at hschema ⊢
  obtain ⟨r, groups, hopen, hahead, -⟩ :=
    close_ahead hlibrary hheld hleads hclose hfits reading hfilter hdeleted hschema
  refine ⟨r, hopen, ?_⟩
  intro k
  rw [Reader.next_after hahead, List.count_replicate_self, List.nil_append]

/-- Columns of an integer and a text, and texts of more than two octets out of line. -/
def twoColumns (fileName : String) : WriterOptions where
  fileName := fileName
  schema := [.ofKind "id" .int, .ofKind "note" .string]
  toastThreshold := some 2

/-- Two rows, with a flush between them. -/
def twoRows : List Call :=
  [.write [.int32 7, .ofString "abc"], .flush, .write [.null, .ofString "d"]]

omit [Library] in
/-- Two rows are written, flushed and read: the first text is stored out of line, the second row has
a null. -/
theorem write_roundtrip_two_rows :
    ∃ w store ws ws' r, create (twoColumns "f") {} = (.ok w, store) ∧
      runAt (@perform .verbatim twoRows)
        { writer := { w with sink := none }, archive := { store, log := [], summaries := [] } } =
          (.ok (), ws) ∧
      runAt (@close .verbatim) ws = (.ok (), ws') ∧
      Reader.ofFile ws'.archive.store "f" {} = .ok r ∧
      ∀ k, (@Reader.next .verbatim
        (@Reader.after .verbatim ws'.archive.store (List.replicate k .next) r)
        ws'.archive.store).1 = .ok (written twoRows)[k]? := by
  have hrun : ∃ w store start written closed, create (twoColumns "f") {} = (.ok w, store) ∧
      start =
        { writer := { w with sink := none }, archive := { store, log := [], summaries := [] } } ∧
      written = runAt (@perform .verbatim twoRows) start ∧ written.1 = .ok () ∧
      closed = runAt (@close .verbatim) written.2 ∧ closed.1 = .ok () ∧
        @Fits .verbatim closed.2.writer := by
    refine ⟨_, _, _, _, _, rfl, rfl, rfl, by decide +kernel,
      rfl, by decide +kernel, by decide +kernel⟩
  obtain ⟨w, store, start, written, closed, hcreate, rfl, rfl, hcalls, rfl, hclose, hfits⟩ := hrun
  obtain ⟨r, hopen, hnext⟩ :=
    @write_roundtrip .verbatim BlockLibrary.verbatim_restores _ _ rfl _ _ hcreate
    none [] [] _ _ _ (Prod.ext hcalls rfl) (Prod.ext hclose rfl) hfits {} rfl rfl
    (by intro schema h; cases h)
  exact ⟨w, store, _, _, r, hcreate, Prod.ext hcalls rfl, Prod.ext hclose rfl, hopen, hnext⟩

end ColumnFile.Writer
