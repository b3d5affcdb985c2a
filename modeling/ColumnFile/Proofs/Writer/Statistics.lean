import ColumnFile.Proofs.Writer.Session

/-! # Statistics of files are exact and hide no row

The statistics in a file count the rows that are read from it: those of a stripe its rows, and those
of the file all rows. What they say about data is true of every datum that was stored, whichever
columns keep ranges or digests, and whatever was merged.

* **`GroupFilter.mayHold`** — the filter of the groups that may hold a datum.
* **`Writer.statistics_exact`** — the statistics of a file that was closed. -/

namespace ColumnFile

/-- The filter that keeps the groups whose statistics of a column do not rule out a datum. -/
def GroupFilter.mayHold [BloomScheme] (column : Nat) (d : Datum) : GroupFilter :=
  fun _ statistics => (statistics[column]?).all (·.mayContain d)

/-- **Statistics do not rule out** a datum of the rows that they describe. -/
theorem StatisticsDescribe.mayHold [BloomScheme] {statistics : List ColumnStatistics}
    {schema : List ColumnSpec} {rows : List Row} (h : StatisticsDescribe statistics schema rows)
    {column : Nat} {d : Datum} (hd : d ∈ columnOf column rows) (index : Nat) :
    GroupFilter.mayHold column d index statistics = true := by
  rw [GroupFilter.mayHold]
  cases hs : statistics[column]? with
  | none => rfl
  | some s => exact (h.columns column s hs).mayContain d hd

namespace Writer

open Writing

variable [Library] {names : String → Prop} {roster : Roster} {archive : Archive} {i : Nat}
  {w : Writer} {l : Ledger}
  {ws : Workspace}

/-- **Statistics are exact and hide no row.** Any number of writers share the files of one store;
they take rows, are flushed, merged and closed, and may differ in the columns that keep ranges and
digests. Nothing fails, and no name is another's with the ending of a file of values. When one of
them is closed, its file is opened with whatever options; its groups have its rows, in their order.
The statistics of a group count exactly the rows of the group and those of its data that are not
null, and the statistics of the file those of all rows; neither rule out a datum that is stored,
nulls included. So the filter of the groups that may hold a datum keeps every group that has it. -/
theorem statistics_exact (hlibrary : BlockLibrary.Restores)
    (hnames : ∀ name name', names name → names name' → Path.same (toastFileName name) name' = false)
    (hsession : Session (.strict names) archive roster) (hmember : roster i = some (w, l))
    (hclose : runAt close { writer := w, archive } = (.ok (), ws)) (hfits : ws.writer.Fits)
    (reading : ReaderOptions)
    (hschema : ∀ schema, reading.schema = some schema → schema = w.options.schema) :
    ∃ r groups, Reader.ofFile ws.archive.store w.options.fileName reading = .ok r ∧
      (reading.filter = none → reading.deleted = none → r.Ahead ws.archive.store groups l.rows) ∧
      groups.flatten = l.rows ∧
      List.Forall₂ (fun info rows => StatisticsDescribe info.statistics w.options.schema rows)
        r.footer.stripes groups ∧
      StatisticsDescribe r.footer.statistics w.options.schema l.rows ∧
      ∀ column d, reading.filter = some (.mayHold column d) →
        ∀ k rows, groups[k]? = some rows → d ∈ columnOf column rows → r.keeps k = true := by
  have hclean := (hsession.clean hmember).flushed
  have hapart : (Rules.strict names).Apart := hnames
  obtain ⟨-, hleads⟩ := hsession.leads hlibrary hapart i w l hmember
  obtain ⟨footer, hfiled, hcolumns⟩ := hsession.filed hlibrary hmember hleads hclose hfits
    (close_rows_lt hlibrary ((hsession.held hlibrary).follows i w l hmember)
      (hsession.clean hmember).backed
      hclose hfits)
  have hcounted : l.flushed.counted = l.rows := by rw [hclean.counted, l.rows_flushed]
  rw [← hcolumns] at hschema
  obtain ⟨r, hopen, hfooter, hoptions, hahead⟩ := hfiled.opens (by rw [hcounted, l.written_flushed])
    (checkSchema_ok hschema)
  -- no stripe of a clean ledger counts rows of another
  have hdescribed := hfiled.described hclean
  rw [hcolumns] at hdescribed
  have hall := hfiled.statistics
  rw [hcounted, hcolumns] at hall
  refine ⟨r, l.flushed.stripes.map Batch.rows, hopen, ?_, ?_, hfooter ▸ hdescribed,
    hfooter ▸ hall, ?_⟩
  · rw [l.written_flushed] at hahead
    exact hahead
  · rw [← List.flatMap_def]
    exact l.written_flushed
  · intro column d hfilter k rows hk hd
    obtain ⟨info, hinfo, hstatistics⟩ := partner hdescribed.flip hk
    rw [Reader.keeps, hoptions, hfilter, hfooter, hinfo]
    exact hstatistics.mayHold hd k

/-- The columns of `twoColumns`: the first keeps ranges, the other one digests. -/
def markedColumns (fileName : String) : WriterOptions :=
  { twoColumns fileName with rangeColumns := ["id"], bloomColumns := ["note"] }

omit [Library] in
/-- A writer takes over one with the same columns, which keep ranges and digests. The file has a
filter of the texts, and the groups that have one of these are kept. -/
theorem statistics_exact_merged :
    ∃ (ws : Workspace) (r : Reader) (groups : List (List Row)),
      Reader.ofFile ws.archive.store "f"
        { filter := some (@GroupFilter.mayHold .narrow 1 (.ofString "abc")) } =
        .ok r ∧
      groups.flatten = written twoRows ++ written twoRows ∧
      @StatisticsDescribe .narrow r.footer.statistics (markedColumns "f").schema
        (written twoRows ++ written twoRows) ∧
      r.footer.statistics.map (·.bloom.isSome) = [false, true] ∧
      ∀ k rows, groups[k]? = some rows → .ofString "abc" ∈ columnOf 1 rows → r.keeps k = true := by
  let reading : ReaderOptions :=
    { filter := some (@GroupFilter.mayHold .narrow 1 (.ofString "abc")) }
  -- the calls are evaluated; what the statistics say follows from the theorem
  have hrun : ∃ a b store store' wa wb wm wc, create (markedColumns "f") {} = (.ok a, store) ∧
      create (markedColumns "g") store = (.ok b, store') ∧
      wa = runAt (@perform .verbatim twoRows) { writer := a, archive := { store := store' } } ∧
      wa.1 = .ok () ∧
      wb = runAt (@perform .verbatim twoRows) { writer := b, archive := wa.2.archive } ∧
        wb.1 = .ok () ∧
      wm = runAt (@merge .verbatim wb.2.writer) { writer := wa.2.writer, archive := wb.2.archive } ∧
      wm.1 = .ok () ∧ wc = runAt (@close .verbatim) wm.2 ∧ wc.1 = .ok () ∧
      wm.2.writer.options = markedColumns "f" ∧ @Fits .verbatim wc.2.writer ∧
      (Reader.ofFile wc.2.archive.store "f" reading).map
        (·.footer.statistics.map (·.bloom.isSome)) =
        .ok [false, true] :=
    ⟨_, _, _, _, _, _, _, _, rfl, rfl, rfl, by decide +kernel, rfl, by decide +kernel, rfl,
      by decide +kernel, rfl, by decide +kernel, by decide +kernel, by decide +kernel,
      by decide +kernel⟩
  obtain ⟨a, b, store, store', wa, wb, wm, wc, ha, hb, hwa, hwa', hwb, hwb', hwm, hwm', hwc, hwc',
    hoptions, hfits, hfilters⟩ := hrun
  have hlibrary := BlockLibrary.verbatim_restores
  obtain ⟨roster, hsession, hours, htheirs⟩ :=
    @run_two .verbatim (.strict fun name => name = "f" ∨ name = "g") hlibrary _
      .ledger _ _ _ _ _ _ _ _ _ wa.2 wb.2
      rfl (.inl rfl) (.inr rfl) ha hb (runAt_eq hwa hwa') (runAt_eq hwb hwb')
  have hmerged := @Run.merge .verbatim _ _ _ _ _ _ _ _ _ _ _ _ hsession hours htheirs
    (runAt_eq hwm hwm')
  obtain ⟨r, groups, hopen, -, hgroups, -, hall, hkeeps⟩ :=
    @statistics_exact .verbatim _ _ _ 0 _ _ _ hlibrary
      (by rintro _ _ (rfl | rfl) (rfl | rfl) <;> decide) hmerged (Function.update_self 0 _ _)
      (runAt_eq hwc hwc') hfits reading (by intro schema h; cases h)
  rw [hoptions] at hopen hall
  rw [Ledger.rows_merge, rows_perform, rows_perform] at hgroups hall
  change Reader.ofFile wc.2.archive.store "f" reading = .ok r at hopen
  rw [hopen] at hfilters
  exact ⟨wc.2, r, groups, hopen, hgroups, hall, Except.ok.inj hfilters, hkeeps 1 _ rfl⟩

end Writer

end ColumnFile
