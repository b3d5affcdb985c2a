import ColumnFile.Proofs.Writer.Session

/-! # What faults leave in a file

A flush that is refused loses its rows, but they stay counted; a merge that breaks off leaves
stripes whose rows are not counted. A reader compares the two counts: it opens the file of a session
exactly when they agree.

* **`Filed.compared`** — what a reader does with the two counts.
* **`Writer.refused_file`** — the file after rows were refused.
* **`Writer.unmerged_file`** — the file after a merge that failed. -/

namespace ColumnFile

variable [Library]

/-- **A reader compares the counts.** When they agree, it opens the file and gives the rows of the
batches, in their order, and then none; when they do not, it rejects the file. -/
theorem Filed.compared {store : Store} {path : String} {l : Ledger} {footer : FileFooter}
    (h : Filed store path l footer) {reading : ReaderOptions} (hfilter : reading.filter = none)
    (hdeleted : reading.deleted = none)
    (hschema : ∀ schema, reading.schema = some schema → schema = footer.schema) :
    (l.counted.length = l.written.length → ∃ r, Reader.ofFile store path reading = .ok r ∧
      r.footer = footer ∧
      ∀ k, ((r.after store (List.replicate k .next)).next store).1 = .ok l.written[k]?) ∧
    (l.counted.length ≠ l.written.length →
      Reader.ofFile store path reading = .error .rowCounts) := by
  have hcheck := Writer.checkSchema_ok hschema
  refine ⟨fun hcounts => ?_, fun hcounts => h.rejects hcounts hcheck⟩
  obtain ⟨r, hopen, hfooter, -, hahead⟩ := h.opens hcounts hcheck
  refine ⟨r, hopen, hfooter, ?_⟩
  intro k
  rw [Reader.next_after (hahead hfilter hdeleted), List.count_replicate_self]

namespace Writer

open Writing

variable {names : String → Prop} {rules : Rules} {roster : Roster} {archive : Archive} {i j : Nat}
  {w : Writer} {l : Ledger} {ws : Workspace}

/-! ## (1) Refusals -/

/-- **The file after rows were refused.** Any number of writers share the files of one store; they
take rows, are flushed and merged, and any of their flushes may be refused, those behind a row that
is written and before a close included. When one of them is closed whose paths lead to its files, as
they do if no name is another's with the ending of a file of values, its file has the stripes that
were accepted, each with the rows that were taken since the flush before it, and no others. The rows
that were refused are still counted in the footer, and in the statistics of the next stripe. So if
no row was refused, the file is opened, gives the rows of its stripes, and its statistics count
exactly these; if some were, it is rejected. The numbers of the file are within the bounds of its
messages. -/
theorem refused_file (hlibrary : BlockLibrary.Restores)
    (hsession : Session (.refusing names) archive roster) (hmember : roster i = some (w, l))
    (hpaths : (Rules.refusing names).Apart ∨ w.Leads archive.store)
    (hclose : runAt close { writer := w, archive } = (.ok (), ws)) (hfits : ws.writer.Fits)
    (reading : ReaderOptions) (hfilter : reading.filter = none) (hdeleted : reading.deleted = none)
    (hschema : ∀ schema, reading.schema = some schema → schema = w.options.schema) :
    l.rows.Sublist l.counted ∧
    (l.counted = l.rows → ∃ r groups, Reader.ofFile ws.archive.store w.options.fileName reading =
      .ok r ∧
      (∀ k, ((r.after ws.archive.store (List.replicate k .next)).next ws.archive.store).1 =
        .ok l.rows[k]?) ∧
      groups.flatten = l.rows ∧
      List.Forall₂ (fun info rows => StatisticsDescribe info.statistics w.options.schema rows)
        r.footer.stripes groups) ∧
    (l.counted ≠ l.rows → Reader.ofFile ws.archive.store w.options.fileName reading =
      .error .rowCounts) ∧
    ∃ footer, Filed ws.archive.store w.options.fileName l.flushed footer := by
  -- the file is filed with the ledger behind the flush, whose rows are those of before
  have hleads := hsession.led hlibrary hmember hpaths
  have hbacked := hsession.backed hmember
  obtain ⟨footer, hfiled, hcolumns⟩ := hsession.filed hlibrary hmember hleads hclose hfits
    (close_rows_lt hlibrary ((hsession.held hlibrary).follows i w l hmember) hbacked hclose hfits)
  rw [← hcolumns] at hschema ⊢
  obtain ⟨hopens, hrejects⟩ := hfiled.compared hfilter hdeleted hschema
  rw [l.counted_flushed, l.written_flushed] at hopens hrejects
  refine ⟨hbacked.rows, ?_, ?_, footer, hfiled⟩
  -- the counts agree, so the file opens, or they differ, so it is refused
  · intro hcounted
    obtain ⟨r, hopen, rfl, hrows⟩ := hopens (congrArg List.length hcounted)
    refine ⟨r, l.flushed.stripes.map Batch.rows, hopen, hrows, ?_, hfiled.described ?_⟩
    · rw [← List.flatMap_def]
      exact l.written_flushed
    · exact (hbacked.clean hcounted).flushed
  · intro hcounted
    refine hrejects fun hlength => hcounted ?_
    exact (hbacked.rows.eq_of_length hlength.symm).symm

/-- A column of integers, and stripes that are logged. -/
def loggedColumn : WriterOptions where
  fileName := "f"
  schema := [.ofKind "id" .int]
  toastThreshold := none
  log := true

/-- A sink that accepts one stripe and no more. -/
def acceptsOne : LogSink where
  refusal call := if call = 0 then none else some (.reported .io "wal refused")

/-- Two rows, with a flush between them. -/
def oneEach : List Call := [.write [.int32 1], .flush, .write [.int32 2]]

omit [Library] in
/-- A row whose stripe was refused stays counted: the file is closed, and rejected. -/
theorem refused_file_rejected :
    ∃ (w : Writer) (store : Store) (kept refused closed : Workspace),
      create loggedColumn {} = (.ok w, store) ∧
      runAt (@perform .verbatim oneEach)
        { writer := { w with sink := some acceptsOne }, archive := { store } } = (.ok (), kept) ∧
      runAt (@flush .verbatim) kept = (.error (.reported .io "wal refused"), refused) ∧
      runAt (@close .verbatim) refused = (.ok (), closed) ∧
      Reader.ofFile closed.archive.store "f" {} = .error .rowCounts := by
  -- the calls are evaluated; that the file is rejected is not, but follows from the ledger
  have hrun : ∃ w store kept refused closed, create loggedColumn {} = (.ok w, store) ∧
      kept = runAt (@perform .verbatim oneEach)
        { writer := { w with sink := some acceptsOne }, archive := { store } } ∧ kept.1 = .ok () ∧
      refused = runAt (@flush .verbatim) kept.2 ∧ refused.1 = .error (.reported .io "wal refused") ∧
      closed = runAt (@close .verbatim) refused.2 ∧ closed.1 = .ok () ∧
      w.options = loggedColumn ∧ kept.2.writer.options = loggedColumn ∧
      refused.2.writer.options = loggedColumn ∧ @Fits .verbatim closed.2.writer := by
    exact ⟨_, _, _, _, _, rfl, rfl, by decide +kernel, rfl, by decide +kernel,
      rfl, by decide +kernel, rfl, by decide +kernel, by decide +kernel, by decide +kernel⟩
  obtain ⟨w, store, kept, refused, closed, hcreate, hkept, hkept', hrefused, hrefused', hclosed,
    hclosed', hoptions, hoptions', hoptions'', hfits⟩ := hrun
  have hlibrary := BlockLibrary.verbatim_restores
  have hstart : @Session .verbatim (.refusing fun name => name = "f") { store := {} } fun _ =>
    none :=
    @Run.start .verbatim _ _ _ _ rfl
  have hmade := @Run.create .verbatim _ _ _ _ _ loggedColumn _ _ 0 hstart rfl hcreate
  have hequipped :=
    @Run.equip .verbatim _ _ _ _ _ 0 _ _ _ (some acceptsOne) w.summaryStatistics hmade rfl rfl
  obtain ⟨-, hcalled⟩ :=
    @Run.perform .verbatim _ _ 0 _ _ hlibrary _ _ _ _ _ hequipped rfl (runAt_eq hkept hkept')
  have hlost := @Run.event .verbatim _ _ _ _ _ 0 _ _ _ _ _ hcalled rfl (.inr trivial)
    (@Occurs.flush .verbatim _ _ _ (runAt_eq hrefused hrefused'))
  have hapart : (Rules.refusing fun name => name = "f").Apart := by
    rintro _ _ rfl rfl
    decide
  obtain ⟨-, -, hrejects, -⟩ := @refused_file .verbatim _ _ _ 0 _ _ _ hlibrary hlost rfl
    (.inl hapart) (runAt_eq hclosed hclosed') hfits {} rfl rfl (by intro schema h; cases h)
  rw [hoptions''] at hrejects
  refine ⟨w, store, kept.2, refused.2, closed.2, hcreate, runAt_eq hkept hkept',
    runAt_eq hrefused hrefused', runAt_eq hclosed hclosed', hrejects ?_⟩
  -- both rows are counted, and only the first is there
  dsimp only
  rw [hoptions, hoptions']
  decide

/-! ## (2) Merges that fail -/

/-- **The file after a merge that failed.** Two writers of a session are merged, in any states that
are reached with refusals and with merges that failed, and the merge fails, whatever the reason; the
first, whose paths lead to its files, as they do if no name is another's with the ending of a file
of values, takes more rows and is closed. Then either the merge was not begun and the writer has
what it had; or its own flush was refused, and the rows that it kept are lost; or its rows are all
there, and behind them those of some stripes of the other writer, as many as came over before the
failure. The file is opened, and gives these rows and those written later, exactly when as many rows
are counted. -/
theorem unmerged_file (hlibrary : BlockLibrary.Restores)
    (hsession : Session (.lax names) archive roster) {a b : Writer} {l' : Ledger}
    (ha : roster i = some (a, l)) (hb : roster j = some (b, l')) (hij : i ≠ j)
    (hpaths : (Rules.lax names).Apart ∨ a.Leads archive.store) {e : Fault}
    {ws₁ ws₂ ws₃ : Workspace} (hmerge : runAt (merge b) { writer := a, archive } = (.error e, ws₁))
    {later : List Call} (hlater : runAt (perform later) ws₁ = (.ok (), ws₂))
    (hclose : runAt close ws₂ = (.ok (), ws₃)) (hfits : ws₃.writer.Fits)
    (hrows : ∀ info ∈ ws₃.writer.stripes, info.rows < 2 ^ 60) (reading : ReaderOptions)
    (hfilter : reading.filter = none) (hdeleted : reading.deleted = none)
    (hschema : ∀ schema, reading.schema = some schema → schema = a.options.schema) :
    ∃ l₁, Unmerged a b l l' archive e ws₁ l₁ ∧
      (l₁.counted.length = l₁.rows.length →
        ∃ r, Reader.ofFile ws₃.archive.store a.options.fileName reading = .ok r ∧
          ∀ k, ((r.after ws₃.archive.store (List.replicate k .next)).next ws₃.archive.store).1 =
            .ok (l₁.rows ++ written later)[k]?) ∧
      (l₁.counted.length ≠ l₁.rows.length →
        Reader.ofFile ws₃.archive.store a.options.fileName reading = .error .rowCounts) := by
  -- the failed merge is an event of the run; what follows it goes on from there
  have hleads := hsession.led hlibrary ha hpaths
  obtain ⟨hmerged, l₁, hbroken, hafter⟩ := hsession.mergeFailed hlibrary ha hb hij hmerge
  obtain ⟨hperformed, hdone⟩ := hafter.perform hlibrary (Function.update_self i _ _) hlater
  have hoptions : ws₂.writer.options = a.options := hperformed.options.trans hmerged.options
  obtain ⟨footer, hfiled, hcolumns⟩ := Session.filed hlibrary hdone (Function.update_self i _ _)
    (hperformed.leads (hmerged.leads hleads)) hclose hfits hrows
  rw [hoptions] at hfiled hcolumns
  rw [← hcolumns] at hschema
  obtain ⟨hopens, hrejects⟩ := hfiled.compared hfilter hdeleted hschema
  rw [Ledger.counted_flushed, Ledger.written_flushed, rows_perform, counted_perform,
    List.length_append, List.length_append] at hopens hrejects
  -- the calls behind it are counted and written alike
  refine ⟨l₁, hbroken, ?_, fun hcounts => hrejects (by omega)⟩
  intro hcounts
  obtain ⟨r, hopen, -, hread⟩ := hopens (by omega)
  exact ⟨r, hopen, hread⟩

/-- A column of texts. -/
def textColumn (fileName : String) (toastThreshold : Option Nat) : WriterOptions where
  fileName := fileName
  schema := [.ofKind "note" .string]
  toastThreshold := toastThreshold

/-- A row that was flushed. -/
def flushedText : List Call := [.write [.ofString "z"], .flush]

/-- A row that was flushed, and one whose text is out of line. -/
def longText : List Call := [.write [.ofString "y"], .flush, .write [.ofString "abc"]]

omit [Library] in
/-- A writer without a file of values takes over a stripe, but not the row behind it, whose text is
out of line: the stripe stays listed and its row is not counted, so the file is closed, and
rejected. -/
theorem unmerged_file_rejected :
    ∃ (a b : Writer) (store store' : Store) (wa wb merged kept closed : Workspace),
      create (textColumn "f" none) {} = (.ok a, store) ∧
      create (textColumn "g" (some 2)) store = (.ok b, store') ∧
      runAt (@perform .verbatim flushedText) { writer := a, archive := { store := store' } } =
        (.ok (), wa) ∧
      runAt (@perform .verbatim longText) { writer := b, archive := wa.archive } = (.ok (), wb) ∧
      runAt (@merge .verbatim wb.writer) { writer := wa.writer, archive := wb.archive } =
        (.error .toastWithoutFile, merged) ∧
      runAt (@perform .verbatim [.write [.ofString "x"]]) merged = (.ok (), kept) ∧
      runAt (@close .verbatim) kept = (.ok (), closed) ∧
      Reader.ofFile closed.archive.store "f" {} = .error .rowCounts := by
  have hrun : ∃ a b store store' wa wb wm wl wc wf, create (textColumn "f" none) {} =
    (.ok a, store) ∧
      create (textColumn "g" (some 2)) store = (.ok b, store') ∧
      wa = runAt (@perform .verbatim flushedText) { writer := a, archive := { store := store' } } ∧
      wa.1 = .ok () ∧
      wb = runAt (@perform .verbatim longText) { writer := b, archive := wa.2.archive } ∧
        wb.1 = .ok () ∧
      wm = runAt (@merge .verbatim wb.2.writer) { writer := wa.2.writer, archive := wb.2.archive } ∧
      wm.1 = .error .toastWithoutFile ∧
      wl = runAt (@perform .verbatim [.write [.ofString "x"]]) wm.2 ∧ wl.1 = .ok () ∧
      wc = runAt (@close .verbatim) wl.2 ∧ wc.1 = .ok () ∧
      wf = runAt (@flush .verbatim) { writer := wa.2.writer, archive := wb.2.archive } ∧
        wf.1 = .ok () ∧
      wa.2.writer.checkMerge wb.2.writer = .ok () ∧
      wm.2.writer.stripes.length = wf.2.writer.stripes.length + 1 ∧
      wa.2.writer.options = textColumn "f" none ∧ @Fits .verbatim wc.2.writer ∧
      ∀ info ∈ wc.2.writer.stripes, info.rows < 2 ^ 60 :=
    ⟨_, _, _, _, _, _, _, _, _, _, rfl, rfl, rfl, by decide +kernel, rfl, by decide +kernel, rfl,
      by decide +kernel, rfl, by decide +kernel, rfl, by decide +kernel, rfl, by decide +kernel,
      by decide +kernel, by decide +kernel, by decide +kernel, by decide +kernel,
      by decide +kernel⟩
  obtain ⟨a, b, store, store', wa, wb, wm, wl, wc, wf, ha, hb, hwa, hwa', hwb, hwb', hwm, hwm',
    hwl, hwl', hwc, hwc', hwf, hwf', hcheck, hlisted, hoptions, hfits, hrows⟩ := hrun
  have hlibrary := BlockLibrary.verbatim_restores
  obtain ⟨roster, hsession, hours, htheirs⟩ :=
    @run_two .verbatim (.lax fun name => name = "f" ∨ name = "g") hlibrary _
      .ledger _ _ _ _ _ _ _ _ _ wa.2
      wb.2 rfl (.inl rfl) (.inr rfl) ha hb (runAt_eq hwa hwa') (runAt_eq hwb hwb')
  have hapart : (Rules.lax fun name => name = "f" ∨ name = "g").Apart := by
    rintro _ _ (rfl | rfl) (rfl | rfl) <;> decide
  obtain ⟨l₁, hunmerged, -, hrejects⟩ := @unmerged_file .verbatim _ _ _ 0 1 _ hlibrary
    hsession _ _ _ hours htheirs (by decide) (.inl hapart) _ _ _ _
    (runAt_eq hwm hwm') _ (runAt_eq hwl hwl') (runAt_eq hwc hwc') hfits hrows {} rfl rfl
    (by intro schema h; cases h)
  have hflush := runAt_eq hwf hwf'
  rw [hoptions] at hrejects
  -- one stripe of two came over, so its row is not counted
  refine ⟨a, b, store, store', wa.2, wb.2, wm.2, wl.2, wc.2, ha, hb, runAt_eq hwa hwa',
    runAt_eq hwb hwb', runAt_eq hwm hwm', runAt_eq hwl hwl', runAt_eq hwc hwc', hrejects ?_⟩
  cases hunmerged with
  | barred check =>
      rw [hcheck] at check
      cases check
  | refused check flushed =>
      rw [hflush] at flushed
      cases flushed
  | broken check flushed listed counted =>
      rw [hflush] at flushed
      cases flushed
      cases Nat.add_left_cancel (hlisted.symm.trans listed)
      rcases counted with rfl | ⟨-, hall⟩
      · decide
      · exact absurd hall (by decide)

end Writer

end ColumnFile
