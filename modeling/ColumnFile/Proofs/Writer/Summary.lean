import ColumnFile.Proofs.Writer.Faults
import ColumnFile.Proofs.Writer.Laid

/-! # What the summary of a file covers

The summary of a closed file has the statistics of a collector of the writer's own, if it got one
before its first row, and those of the file if not. When writers are merged, statistics of the file
stand in for a collector that one of them lacks; but only if it is the writer that goes on. The rows
of a writer without a collector are forgotten by one that has its own.

* **`Coverage`** — the rows that a summary counts, which is not part of any program;
  **`Writer.Note.coverage`** — it is noted beside writers that may get collectors.
* **`Writer.Quiet`** — a step that counts no row; **`Writer.flush_quiet`**,
  **`Writer.adopt_quiet`**.
* **`Writer.Covers`** — what a writer counts for its summary; **`Writer.Run.covers`**.
* **`Writer.summary_covers`** — the summary describes the rows that are covered, and all rows of the
  file exactly when none was forgotten. -/

namespace ColumnFile

/-! ## (1) Coverage -/

/-- What a summary **covers**. -/
structure Coverage where
  /-- Whether the writer has a collector of its own. -/
  own : Bool := false
  /-- The rows that are counted. -/
  rows : List Row := []
  /-- All rows of the writer. -/
  all : List Row := []
deriving Inhabited

namespace Coverage

/-- Rows that are written are counted. -/
def write (c : Coverage) (rows : List Row) : Coverage :=
  { c with rows := c.rows ++ rows, all := c.all ++ rows }

/-- The rows of both writers are counted, unless only the first has a collector of its own. -/
def merge (c other : Coverage) : Coverage where
  own := c.own || other.own
  rows := if c.own && !other.own then c.rows else c.rows ++ other.rows
  all := c.all ++ other.all

end Coverage

/-- **Statistics describe all rows** exactly when they describe as many as there are; if not, every
column counts fewer. -/
theorem StatisticsDescribe.covers [BloomScheme] {statistics : List ColumnStatistics}
    {schema : List ColumnSpec} {covered rows : List Row}
    (h : StatisticsDescribe statistics schema covered) (hschema : schema ≠ [])
    (hcovered : covered.Sublist rows) :
    (covered = rows ↔ StatisticsDescribe statistics schema rows) ∧
      (covered ≠ rows → ∀ s ∈ statistics, s.rows < rows.length) := by
  have hcount : ∀ s ∈ statistics, s.rows = covered.length := by
    intro s hs
    obtain ⟨i, hi⟩ := List.mem_iff_getElem?.mp hs
    rw [(h.columns i s hi).rows]
    exact List.length_map _
  refine ⟨⟨fun hsame => hsame ▸ h, ?_⟩, ?_⟩
  · intro hall
    obtain ⟨s, rest, rfl⟩ : ∃ s rest, statistics = s :: rest := by
      refine List.exists_cons_of_ne_nil ?_
      rintro rfl
      exact hschema (List.length_eq_zero_iff.mp h.width.symm)
    refine hcovered.eq_of_length ?_
    rw [← hcount s List.mem_cons_self, (hall.columns 0 s rfl).rows]
    exact List.length_map _
  · intro hdiffer s hs
    rw [hcount s hs]
    exact Nat.lt_of_le_of_ne hcovered.length_le fun hsame => hdiffer (hcovered.eq_of_length hsame)

namespace Writer

open Writing

variable [Library] {names : String → Prop} {archive : Archive} {register : Register Coverage}
  {i : Nat}
  {w w' other : Writer} {l : Ledger} {c c' : Coverage} {ws ws' : Workspace}

/-- **The coverage** as a note: a writer that has no rows yet may get a collector for its summary,
which has the columns of its schema and has counted nothing. Merges do not break off where it is
noted. -/
def Note.coverage : Note Coverage where
  fresh := {}
  equip w summary c c' := (summary = w.summaryStatistics ∧ c' = c) ∨
    ∃ s, summary = some s ∧ c.all = [] ∧ s.Describes w.options.schema [] ∧ c' = { own := true }
  after _ event _ c := c.write event.rows
  merge := Coverage.merge
  broken _ _ _ _ _ := False

/-- **All rows of a writer** are those of its ledger, where nothing fails. -/
theorem coverage_tracks : Note.coverage.Tracks .ledger (.strict names) fun c l =>
    l.rows = c.all where
  fresh := rfl
  equip := by
    rintro w summary c _ l (⟨-, rfl⟩ | ⟨s, -, hnone, -, rfl⟩) hrows
    · exact ⟨l, rfl, hrows⟩
    · exact ⟨l, rfl, hrows.trans hnone⟩
  after hallowed hrows := by
    obtain rfl := hallowed.resolve_right fun hrefused => hrefused
    rw [Ledger.rows_after, hrows]
    rfl
  merge hours htheirs := by
    rw [Ledger.rows_merge, hours, htheirs]
    rfl
  broken hbroken := hbroken.elim

/-! ## (2) Steps that count nothing -/

omit [Library] in
/-- **A step that counts no row**: the statistics of the file and those for its summary stay, and no
summary is given. -/
structure Quiet (ws ws' : Workspace) : Prop where
  options : ws'.writer.options = ws.writer.options
  file : ws'.writer.fileStatistics = ws.writer.fileStatistics
  summary : ws'.writer.summaryStatistics = ws.writer.summaryStatistics
  summaries : ws'.archive.summaries = ws.archive.summaries

omit [Library] in
/-- Steps that count nothing follow each other. -/
instance : IsTrans Workspace Quiet :=
  ⟨fun _ _ _ h h' => ⟨h'.options.trans h.options, h'.file.trans h.file, h'.summary.trans h.summary,
    h'.summaries.trans h.summaries⟩⟩

omit [Library] in
/-- Stripes that are laid down were counted before. -/
theorem Lays.quiet (h : Lays ws ws') : Quiet ws ws' := by
  obtain ⟨offset, toastOffset, stripes, sink, hwriter⟩ := h.writer
  refine ⟨?_, ?_, ?_, h.summaries⟩
  all_goals rw [hwriter]

/-- **A flush** counts no row. -/
theorem flush_quiet : Within Quiet flush := by
  intro ws outcome ws' h
  obtain ⟨columns, stripeStatistics, -, -, hlays⟩ := flush_lays h
  exact ⟨hlays.quiet.options, hlays.quiet.file, hlays.quiet.summary, hlays.summaries⟩

/-- **What comes over** from another writer is not counted yet. -/
theorem adopt_quiet (other : Writer) : Within Quiet (adopt other) := fun _ _ _ h =>
    (adopt_lays other h).quiet

omit [Library] in
/-- Paths that are deleted were not counted. -/
theorem deleteFiles_quiet (other : Writer) : Within Quiet (deleteFiles other) := by
  intro ws outcome ws' h
  obtain ⟨store, rfl⟩ := deleteFiles_store h
  exact ⟨rfl, rfl, rfl, rfl⟩

/-! ## (3) What writers count -/

omit [Library] in
/-- **What a writer counts for its summary**: a collector of its own describes the rows that are
covered, which are some of its rows; a writer without one covers all its rows. -/
structure Covers (w : Writer) (c : Coverage) : Prop where
  own : w.summaryStatistics.isSome = c.own
  counted : ∀ s, w.summaryStatistics = some s → s.Describes w.options.schema c.rows
  rows : c.rows.Sublist c.all
  all : c.own = false → c.rows = c.all

/-- What is covered depends on the collector of the writer. -/
theorem Covers.congr (h : w.Covers c) (hoptions : w'.options = w.options)
    (hsummary : w'.summaryStatistics = w.summaryStatistics) : w'.Covers c := by
  refine ⟨hsummary ▸ h.own, ?_, h.rows, h.all⟩
  rw [hsummary, hoptions]
  exact h.counted

/-- **A writer without rows and without a collector** covers all of them. -/
theorem covers_nil (hsummary : w.summaryStatistics = none) : w.Covers {} := by
  refine ⟨by rw [hsummary]; rfl, ?_, .slnil, fun _ => rfl⟩
  intro s hs
  rw [hsummary] at hs
  cases hs

/-- **A writer without rows** may get a collector, and covers all of them. -/
theorem covers_own {s : Collector} (hsummary : w.summaryStatistics = some s)
    (hsuits : s.Describes w.options.schema []) : w.Covers { own := true } := by
  refine ⟨by rw [hsummary]; rfl, ?_, .slnil, fun _ => rfl⟩
  intro s' hs'
  cases hsummary.symm.trans hs'
  exact hsuits

/-- **A row that is counted** is counted by the collector that is there, if there is one. -/
theorem summed_row {summary summary' : Option Collector} {row : Row}
    (h : summary.mapM (·.addRow row) = (.ok summary' : Except Fault (Option Collector))) :
    summary'.isSome = summary.isSome ∧
      ∀ s', summary' = some s' → ∃ s, summary = some s ∧ s.addRow row = .ok s' := by
  cases summary with
  | none =>
      cases h
      exact ⟨rfl, fun s' hs' => nomatch hs'⟩
  | some s =>
      rw [Option.mapM_some] at h
      obtain ⟨s', hadd, rfl⟩ := map_eq_ok h
      refine ⟨rfl, ?_⟩
      intro s'' hs''
      cases hs''
      exact ⟨s, rfl, hadd⟩

/-- **A call that succeeds** counts the row that it writes. -/
theorem Call.covers {call : Call} (hcovers : ws.writer.Covers c)
    (h : runAt call.step ws = (.ok (), ws')) :
    ws'.writer.Covers (c.write call.event.rows) := by
  cases call with
  | flush =>
      have hquiet := flush_quiet h
      have hnone : c.write (Call.flush.event.rows) = c := by
        rw [Coverage.write, show Call.flush.event.rows = [] from rfl, List.append_nil,
          List.append_nil]
      rw [hnone]
      exact hcovers.congr hquiet.options hquiet.summary
  | write row =>
      obtain ⟨-, hwidth, values, columns, w₁, hvalues, -, hcount, hlast⟩ := write_ok h
      obtain ⟨stripeStatistics, fileStatistics, summaryStatistics, -, -, hsummed, rfl⟩ :=
        count_ok hcount
      obtain ⟨hown, hadded⟩ := summed_row hsummed
      -- the flush behind the row, if there is one, counts nothing
      have hquiet : ws'.writer.options = ws.writer.options ∧
          ws'.writer.summaryStatistics = summaryStatistics := by
        rcases hlast with ⟨-, -, rfl⟩ | ⟨-, hflush⟩
        · exact ⟨rfl, rfl⟩
        · have hquiet := flush_quiet hflush
          exact ⟨hquiet.options, hquiet.summary⟩
      obtain ⟨hoptions, hsummary⟩ := hquiet
      refine ⟨?_, ?_, ?_, ?_⟩
      · rw [hsummary]
        exact hown.trans hcovers.own
      · intro s' hs'
        rw [hsummary] at hs'
        rw [hoptions]
        obtain ⟨s, hs, hadd⟩ := hadded s' hs'
        exact (hcovers.counted s hs).addRow (suits_of_storedRow hvalues hwidth) hadd
      · exact hcovers.rows.append (List.Sublist.refl _)
      · intro hnone
        show c.rows ++ _ = c.all ++ _
        rw [hcovers.all hnone]

/-- **The statistics for the summary of two writers** describe what the merge covers. -/
theorem mergedSummary_covers {summary : Option Collector} (h : w.mergedSummary other = .ok summary)
    (hours : w.Covers c) (htheirs : other.Covers c')
    (hschema : w.options.schema = other.options.schema)
    (hfile : w.fileStatistics.Describes w.options.schema c.all) :
    summary.isSome = (c.merge c').own ∧
      ∀ s, summary = some s → s.Describes w.options.schema (c.merge c').rows := by
  have hown := hours.own
  have hown' := htheirs.own
  unfold mergedSummary at h
  unfold Coverage.merge
  cases hmine : w.summaryStatistics with
  | none =>
      rw [hmine] at h hown
      cases hother : other.summaryStatistics with
      | none =>
          rw [hother] at h hown'
          cases h
          rw [← hown, ← hown']
          exact ⟨rfl, fun s hs => nomatch hs⟩
      | some theirs =>
          rw [hother] at h hown'
          obtain ⟨joined, hmerge, rfl⟩ := map_eq_ok h
          rw [← hown, ← hown']
          refine ⟨rfl, ?_⟩
          intro s hs
          cases hs
          -- the statistics of the file stand in for ours
          have hcounted := htheirs.counted theirs hother
          rw [← hschema] at hcounted
          have hjoined := (hcounted.merge hfile hmerge).perm List.perm_append_comm
          rw [← hours.all hown.symm] at hjoined
          exact hjoined
  | some ours =>
      rw [hmine] at h hown
      have hcounted := hours.counted ours hmine
      cases hother : other.summaryStatistics with
      | none =>
          -- nothing stands in for theirs
          rw [hother] at h hown'
          cases h
          rw [← hown, ← hown']
          refine ⟨rfl, ?_⟩
          intro s hs
          cases hs
          exact hcounted
      | some theirs =>
          rw [hother] at h hown'
          obtain ⟨joined, hmerge, rfl⟩ := map_eq_ok h
          rw [← hown, ← hown']
          refine ⟨rfl, ?_⟩
          intro s hs
          cases hs
          have hcounted' := htheirs.counted theirs hother
          rw [← hschema] at hcounted'
          exact hcounted.merge hcounted' hmerge

/-- **A merge** covers what both writers cover, or forgets the rows of the other. -/
theorem merge_covers (h : runAt (merge other) ws = (.ok (), ws')) (hours : ws.writer.Covers c)
    (htheirs : other.Covers c')
    (hfile : ws.writer.fileStatistics.Describes ws.writer.options.schema c.all) :
    ws'.writer.Covers (c.merge c') := by
  obtain ⟨hcheck, w₁, w₂, w₃, hflush, hadopt, hstatistics, hdelete⟩ := merge_ok h
  obtain ⟨-, -, -, hschema, -⟩ := checkMerge_ok hcheck
  have hquiet : Quiet ws w₂ := trans_of Quiet (flush_quiet hflush) (adopt_quiet other hadopt)
  obtain ⟨summary, fileStatistics, hsummary, -, rfl⟩ := takeStatistics_ok hstatistics
  have hlast := deleteFiles_quiet other hdelete
  have hours₂ : w₂.writer.Covers c := hours.congr hquiet.options hquiet.summary
  rw [← hquiet.options] at hschema
  rw [← hquiet.file, ← hquiet.options] at hfile
  obtain ⟨hown, hcounted⟩ := mergedSummary_covers hsummary hours₂ htheirs hschema hfile
  refine ⟨?_, ?_, ?_, ?_⟩
  · rw [hlast.summary]
    exact hown
  · rw [hlast.summary, hlast.options]
    exact hcounted
  · unfold Coverage.merge
    dsimp only
    split
    · exact hours.rows.trans (List.sublist_append_left _ _)
    · exact hours.rows.append htheirs.rows
  · intro hnone
    obtain ⟨hmine, hother⟩ := Bool.or_eq_false_iff.mp hnone
    rw [Coverage.merge, hmine, hours.all hmine, htheirs.all hother]
    rfl

/-- **What every writer counts** for its summary, where nothing fails. -/
theorem Run.covers (hlibrary : BlockLibrary.Restores)
    (h : Run Note.coverage (.strict names) archive register) (hmember : register i = some (w, c)) :
    w.Covers c := by
  refine h.each ?_ ?_ ?_ ?_ ?_ i w c hmember
  · intro options store w store' hcreate
    obtain ⟨file, store₁, toastFile, columns, -, -, -, -, rfl⟩ := create_ok hcreate
    exact covers_nil rfl
  · rintro w sink summary c _ (⟨rfl, rfl⟩ | ⟨s, rfl, -, hsuits, rfl⟩) hcovers
    · exact hcovers.congr rfl rfl
    · exact covers_own rfl hsuits
  · intro event outcome ws ws' c hallowed hoccurs hcovers
    obtain rfl := hallowed.resolve_right fun hrefused => hrefused
    obtain ⟨call, rfl, hcall⟩ := hoccurs.call
    exact Call.covers hcovers hcall
  · intro archive register i j a b c c' ws hrun hfirst _ hmerge hours htheirs
    -- the statistics of the file count all rows of the first writer
    obtain ⟨roster, hsession, hsame⟩ := hrun.tracked coverage_tracks
    obtain ⟨l, hlisted, hrows⟩ := hsame i a c hfirst
    have hfile := ((Session.held hlibrary hsession).follows i a l hlisted).fileStatistics
    rw [(Session.clean hsession hlisted).counted, hrows] at hfile
    exact merge_covers hmerge hours htheirs hfile
  · intro a b w n counted c c' c₁ hbreaks
    exact hbreaks.elim

/-! ## (4) Summaries -/

/-- **The summary of a file that is closed** counts all rows, and describes those that are
covered. -/
theorem close_summary (hlibrary : BlockLibrary.Restores) (h : runAt close ws = (.ok (), ws'))
    (hfollows : ws.writer.Follows ws.archive.store l) (hclean : l.Clean) (hrows : l.rows = c.all)
    (hcovers : ws.writer.Covers c) :
    ∃ summary, ws'.archive.summaries = ws.archive.summaries ++ [summary] ∧
      summary.fileName = ws.writer.options.fileName ∧ summary.tuples = c.all.length ∧
      StatisticsDescribe summary.statistics ws.writer.options.schema c.rows := by
  obtain ⟨w₁, file, store, hflush, -, rfl, -⟩ := close_ok hfollows.isOpen h
  have hquiet := flush_quiet hflush
  obtain ⟨-, hfollows₁⟩ := flush_follows hlibrary hfollows hflush
  refine ⟨w₁.writer.summary (tail w₁.writer.footer), ?_, ?_, ?_, ?_⟩
  · show w₁.archive.summaries ++ _ = _
    rw [hquiet.summaries]
  · show w₁.writer.options.fileName = _
    rw [hquiet.options]
  · show w₁.writer.tuples = _
    rw [hfollows₁.tuples, l.counted_flush, hclean.counted, hrows]
  · show StatisticsDescribe (w₁.writer.summaryStatistics.getD w₁.writer.fileStatistics).finish _ _
    rw [hquiet.summary, hquiet.file]
    have hown := hcovers.own
    cases hsummary : ws.writer.summaryStatistics with
    | none =>
        rw [hsummary] at hown
        rw [hcovers.all hown.symm, ← hrows, ← hclean.counted]
        exact hfollows.fileStatistics.finish
    | some s => exact (hcovers.counted s hsummary).finish

/-- **The summary covers what was not forgotten.** Any number of writers share the files of one
store; they take rows, are flushed, merged and closed, nothing fails, and no name is another's with
the ending of a file of values. Each of them may have got a collector with the columns of its schema
before its first row. When one of them is closed, its file is opened and gives its rows, in their
order, and the summary that is given counts them. The statistics of the summary have the row and
non-null counts of the rows that are covered, and rule out no datum of them: all rows of the file,
but for those of writers without a collector that were merged into a writer which had one. So they
are those of the file exactly when none was forgotten; and when some were, every column of the
summary counts fewer rows than the summary. -/
theorem summary_covers (hlibrary : BlockLibrary.Restores)
    (hnames : ∀ name name', names name → names name' → Path.same (toastFileName name) name' = false)
    (hrun : Run Note.coverage (.strict names) archive register) (hmember : register i = some (w, c))
    (hclose : runAt close { writer := w, archive } = (.ok (), ws)) (hfits : ws.writer.Fits)
    (reading : ReaderOptions) (hfilter : reading.filter = none) (hdeleted : reading.deleted = none)
    (hschema : ∀ schema, reading.schema = some schema → schema = w.options.schema) :
    ∃ summary r, ws.archive.summaries = archive.summaries ++ [summary] ∧
      summary.fileName = w.options.fileName ∧ summary.tuples = c.all.length ∧
      Reader.ofFile ws.archive.store w.options.fileName reading = .ok r ∧
      (∀ k, ((r.after ws.archive.store (List.replicate k .next)).next ws.archive.store).1 =
        .ok c.all[k]?) ∧
      c.rows.Sublist c.all ∧ StatisticsDescribe summary.statistics w.options.schema c.rows ∧
      (c.rows = c.all ↔ StatisticsDescribe summary.statistics w.options.schema c.all) ∧
      (c.rows ≠ c.all → ∀ s ∈ summary.statistics, s.rows < summary.tuples) := by
  -- the ledger and the coverage are noted of the same run
  obtain ⟨roster, hsession, hsame⟩ := hrun.tracked coverage_tracks
  obtain ⟨l, hlisted, hrows⟩ := hsame i w c hmember
  have hclean := Session.clean hsession hlisted
  have hfollows := (Session.held hlibrary hsession).follows i w l hlisted
  have hleads := Session.led hlibrary hsession hlisted (.inl hnames)
  have hcovers := hrun.covers hlibrary hmember
  obtain ⟨r, groups, hopen, hahead, -⟩ :=
    close_ahead hlibrary ⟨l, hfollows, hclean, hrows⟩ hleads hclose hfits reading hfilter
      hdeleted hschema
  -- the summary is of the rows that were covered, which are among all
  obtain ⟨summary, hgiven, hname, htuples, hdescribes⟩ :=
    close_summary hlibrary hclose hfollows hclean hrows hcovers
  obtain ⟨hexact, hfewer⟩ :=
    hdescribes.covers (WriterOptions.validate_ok hfollows.valid).1 hcovers.rows
  refine ⟨summary, r, hgiven, hname, htuples, hopen, ?_, hcovers.rows, hdescribes, hexact, ?_⟩
  · intro k
    rw [Reader.next_after hahead, List.count_replicate_self]
  · rw [htuples]
    exact hfewer

omit [Library] in
/-- **A collector forgets the rows of a writer without one**: a writer that got a collector takes
over one that got none, and its summary counts two rows, but no column does. -/
theorem summary_covers_forgotten :
    ∃ (a b : Writer) (store store' : Store) (wa wb merged closed : Workspace)
    (summary : WriteSummary),
      create (textColumn "f" none) {} = (.ok a, store) ∧
      create (textColumn "g" none) store = (.ok b, store') ∧
      runAt (@Call.step .verbatim (.write [.ofString "z"]))
        { writer := { a with summaryStatistics := some (freshStatistics a.options) }
          archive := { store := store' } } = (.ok (), wa) ∧
      runAt (@Call.step .verbatim (.write [.ofString "y"])) { writer := b, archive := wa.archive } =
        (.ok (), wb) ∧
      runAt (@merge .verbatim wb.writer) { writer := wa.writer, archive := wb.archive } =
        (.ok (), merged) ∧
      runAt (@close .verbatim) merged = (.ok (), closed) ∧
      closed.archive.summaries = merged.archive.summaries ++ [summary] ∧ summary.tuples = 2 ∧
      ∀ s ∈ summary.statistics, s.rows < summary.tuples := by
  -- the calls are evaluated; that a row is missing follows from the coverage
  have hrun : ∃ a b store store' wa wb wm wc, create (textColumn "f" none) {} = (.ok a, store) ∧
      create (textColumn "g" none) store = (.ok b, store') ∧
      wa = runAt (@Call.step .verbatim (.write [.ofString "z"]))
        { writer := { a with summaryStatistics := some (freshStatistics a.options) }
          archive := { store := store' } } ∧ wa.1 = .ok () ∧
      wb = runAt (@Call.step .verbatim (.write [.ofString "y"]))
        { writer := b, archive := wa.2.archive } ∧
      wb.1 = .ok () ∧
      wm = runAt (@merge .verbatim wb.2.writer) { writer := wa.2.writer, archive := wb.2.archive } ∧
      wm.1 = .ok () ∧ wc = runAt (@close .verbatim) wm.2 ∧ wc.1 = .ok () ∧
      @Fits .verbatim wc.2.writer :=
    ⟨_, _, _, _, _, _, _, _, rfl, rfl, rfl, by decide +kernel, rfl, by decide +kernel, rfl,
      by decide +kernel, rfl, by decide +kernel, by decide +kernel⟩
  obtain ⟨a, b, store, store', wa, wb, wm, wc, ha, hb, hwa, hwa', hwb, hwb', hwm, hwm', hwc, hwc',
    hfits⟩ := hrun
  have hlibrary := BlockLibrary.verbatim_restores
  let names : String → Prop := fun name => name = "f" ∨ name = "g"
  -- the same calls as a run, with the coverage noted
  have hstart : @Run .verbatim _ (@Note.coverage .verbatim) (.strict names) {} fun _ => none :=
    @Run.start .verbatim _ _ _ {} rfl
  have hmade := @Run.create .verbatim _ _ _ _ _ _ _ _ 0 hstart (.inl rfl) ha
  have hmade' := @Run.create .verbatim _ _ _ _ _ _ _ _ 1 hmade (.inr rfl) hb
  have hcollects := @Run.equip .verbatim _ _ _ _ _ 0 _ _ _ a.sink
    (some (freshStatistics a.options)) hmade' rfl
    (.inr ⟨_, rfl, rfl,
      @Collector.new_describes .narrow a.options.schema a.options.rangeColumns
        a.options.bloomColumns, rfl⟩)
  have hfirst := @Run.event .verbatim _ _ _ _ _ 0 _ _ _ _ _ hcollects rfl (.inl rfl)
    (@Call.occurs .verbatim _ _ _ (runAt_eq hwa hwa'))
  have hsecond := @Run.event .verbatim _ _ _ _ _ 1 _ _ _ _ _ hfirst rfl (.inl rfl)
    (@Call.occurs .verbatim _ _ _ (runAt_eq hwb hwb'))
  have hmerged := @Run.merge .verbatim _ _ _ _ _ 0 1 _ _ _ _ _ hsecond rfl rfl (runAt_eq hwm hwm')
  obtain ⟨summary, r, hgiven, -, htuples, -, -, -, -, -, hfewer⟩ :=
    @summary_covers .verbatim _ _ _ 0 _
      { own := true, rows := [[.ofString "z"]], all := [[.ofString "z"], [.ofString "y"]] } _
      hlibrary
      (by rintro _ _ (rfl | rfl) (rfl | rfl) <;> decide) hmerged rfl
        (runAt_eq hwc hwc') hfits {} rfl rfl
      (by intro schema h; cases h)
  exact ⟨a, b, store, store', wa.2, wb.2, wm.2, wc.2, summary, ha, hb, runAt_eq hwa hwa',
    runAt_eq hwb hwb', runAt_eq hwm hwm', runAt_eq hwc hwc', hgiven, htuples, hfewer (by decide)⟩

end Writer

end ColumnFile
