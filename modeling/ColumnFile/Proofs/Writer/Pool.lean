import ColumnFile.Proofs.Writer.Session

/-! # Writers side by side

Any number of writers share the files of one store. They are made, take rows, are merged and closed,
in any order, and nothing fails; each of them goes on to hold the rows that it was given and those
of the writers that it took over.

* **`Writer.Note.rows`** — the rows of a writer, as its note.
* **`Writer.Run.holds`** — every writer of a run holds its rows.
* **`Writer.merge_roundtrip`** — the file of a writer reads back as its rows, those of the writer
  that was merged into it, and those written later. -/

namespace ColumnFile.Writer

open Writing

variable [Library] {names : String → Prop} {register : Register (List Row)} {archive : Archive}
  {i j : Nat}
  {w : Writer}

/-! ## (1) Rows -/

omit [Library] in
/-- **The rows of a writer** as its note: those that it was given, and those of the writers that it
took over. Merges do not break off where they are noted. -/
def Note.rows : Note (List Row) where
  fresh := []
  equip _ _ rows rows' := rows' = rows
  after _ event _ rows := rows ++ event.rows
  merge ours theirs := ours ++ theirs
  broken _ _ _ _ _ := False

omit [Library] in
/-- **The rows that calls write** are behind those that were there. -/
@[simp] theorem perform_rows (options : WriterOptions) (calls : List Call) (rows : List Row) :
    Note.rows.perform options calls rows = rows ++ written calls := by
  induction calls generalizing rows with
  | nil => exact (List.append_nil _).symm
  | cons call calls ih =>
      rw [Note.perform_cons, ih, written_cons, ← List.append_assoc, ← Call.rows_event]
      rfl

omit [Library] in
/-- **The rows of a writer** are those of its ledger, where nothing fails. -/
theorem rows_tracks : Note.rows.Tracks .ledger (.strict names) fun rows l => l.rows = rows where
  fresh := rfl
  equip hnoted hrows := ⟨_, rfl, hrows.trans hnoted.symm⟩
  after hallowed hrows := by
    obtain rfl := hallowed.resolve_right fun hrefused => hrefused
    rw [Ledger.rows_after, hrows]
    rfl
  merge hours htheirs := by
    rw [Ledger.rows_merge, hours, htheirs]
    rfl
  broken hbroken := hbroken.elim

/-- **Every writer holds its rows.** -/
theorem Run.holds (hlibrary : BlockLibrary.Restores) {rows : List Row}
    (h : Run Note.rows (.strict names) archive register) (hmember : register i = some (w, rows)) :
    w.Holds archive.store rows := by
  obtain ⟨roster, hsession, hsame⟩ := h.tracked rows_tracks
  obtain ⟨l, hlisted, hrows⟩ := hsame i w rows hmember
  exact ⟨l, (Session.held hlibrary hsession).follows i w l hlisted, Session.clean hsession hlisted,
    hrows⟩

/-! ## (2) Merging -/

/-- **A merged file reads back.** Any number of writers share the files of one store; they are made,
take rows, are flushed, merged and closed, and nothing fails. Two of them have different names, and
neither name is the other with the ending of a file of values. The second is merged into the first,
which then takes more rows and closes its file. When all of it succeeds and the paths of the first
writer led to its files, its file can be opened; in whatever order rows are asked for, the rows in
turn and those by their place are the rows of the first writer, then those of the second, then those
written later. When its path led nowhere, because an earlier merge had deleted it, the file cannot
be opened. The paths of the second writer are gone in any case. -/
theorem merge_roundtrip (hlibrary : BlockLibrary.Restores)
    (hrun : Run Note.rows (.strict fun _ => True) archive register) {a b : Writer}
    {ours theirs : List Row} (ha : register i = some (a, ours)) (hb : register j = some (b, theirs))
    (hours : Path.same b.options.toastFileName a.options.fileName = false)
    (htheirs : Path.same a.options.toastFileName b.options.fileName = false)
    {ws₁ ws₂ ws₃ : Workspace} (hmerge : runAt (merge b) { writer := a, archive } = (.ok (), ws₁))
    {later : List Call} (hlater : runAt (perform later) ws₁ = (.ok (), ws₂))
    (hclose : runAt close ws₂ = (.ok (), ws₃)) (hfits : ws₃.writer.Fits) (reading : ReaderOptions)
    (hfilter : reading.filter = none) (hdeleted : reading.deleted = none)
    (hschema : ∀ schema, reading.schema = some schema → schema = a.options.schema) :
    (a.Leads archive.store →
      ∃ r, Reader.ofFile ws₃.archive.store a.options.fileName reading = .ok r ∧
        (∀ calls, ((r.after ws₃.archive.store calls).next ws₃.archive.store).1 =
          .ok (ours ++ theirs ++ written later)[calls.count .next]?) ∧
        ∀ calls place, place < (ours ++ theirs ++ written later).length →
          ((r.after ws₃.archive.store calls).row? ws₃.archive.store place).1 =
            .ok (ours ++ theirs ++ written later)[place]?) ∧
    (archive.store.find? a.options.fileName = none →
      Reader.ofFile ws₃.archive.store a.options.fileName reading =
        .error (.noSuchFile a.options.fileName)) ∧
    ws₃.archive.store.has b.options.fileName = false ∧
    ws₃.archive.store.has b.options.toastFileName = false := by
  -- the merge, and what follows it
  have hapart := hrun.apart hlibrary ha hb (merge_ne ha hb hmerge)
  obtain ⟨hmerges, hholds₁⟩ :=
    merge_holds hlibrary hmerge (hrun.holds hlibrary ha) (hrun.holds hlibrary hb)
    hapart
  obtain ⟨hadvances, hholds₂⟩ := perform_holds hlibrary hlater hholds₁
  obtain ⟨hforeign, -, -, hnone⟩ := close_frame hlibrary hholds₂ hclose
  have hoptions : ws₂.writer.options = a.options := hadvances.options.trans hmerges.options
  -- a path that leads nowhere after the merge still does when the file is closed
  have hgone : ∀ path, ws₁.archive.store.find? path = none →
    ws₃.archive.store.find? path = none := by
    intro path hpath
    refine hnone path ?_
    rw [hadvances.writes.find?]
    exact hpath
  have hdeletes : ∀ path,
      Path.same b.options.fileName path = true ∨ Path.same b.options.toastFileName path = true →
        ws₃.archive.store.has path = false := by
    intro path hpath
    have hfind : ws₃.archive.store.find? path = none := by
      apply hgone
      rw [hmerges.paths, if_pos hpath]
    simp [Store.has, hfind, hforeign]
  refine ⟨?_, ?_, ?_, ?_⟩
  · intro hleads
    obtain ⟨-, -, hnames, -⟩ := checkMerge_ok (merge_ok hmerge).1
    have hleads₂ := hadvances.leads (hmerges.leads hleads hnames hours htheirs)
    rw [← hoptions] at hschema ⊢
    obtain ⟨r, groups, hopen, hahead, hrows⟩ :=
      close_ahead hlibrary hholds₂ hleads₂ hclose hfits reading hfilter hdeleted hschema
    refine ⟨r, hopen, ?_, ?_⟩
    · intro calls
      exact Reader.next_after hahead calls
    · intro calls place hplace
      rw [← hrows] at hplace ⊢
      exact Reader.row?_after hahead calls hplace
  · intro hnowhere
    apply Reader.ofFile_nowhere hforeign
    apply hgone
    rw [hmerges.paths, hnowhere, ite_self]
  · exact hdeletes _ (.inl (Path.same_iff.mpr rfl))
  · exact hdeletes _ (.inr (Path.same_iff.mpr rfl))

/-- A row that the second writer has flushed, and one that it still keeps. -/
def otherRows : List Call :=
  [.write [.int32 1, .ofString "other"], .flush, .write [.int32 2, .null]]

omit [Library] in
/-- A writer with rows in a stripe and in its columns, inline and out of line, is merged into
another; a row is written later. -/
theorem merge_roundtrip_two_writers :
    ∃ archive register a b ws₁ ws₂ ws₃ r, @Run .verbatim _ Note.rows
      (.strict fun _ => True) archive register ∧
      register 0 = some (a, written twoRows) ∧ register 1 = some (b, written otherRows) ∧
      runAt (@merge .verbatim b) { writer := a, archive } = (.ok (), ws₁) ∧
      runAt (@perform .verbatim [.write [.int32 9, .null]]) ws₁ = (.ok (), ws₂) ∧
      runAt (@close .verbatim) ws₂ = (.ok (), ws₃) ∧
      Reader.ofFile ws₃.archive.store "f" {} = .ok r ∧
      (∀ calls, (@Reader.next .verbatim (@Reader.after .verbatim ws₃.archive.store calls r)
          ws₃.archive.store).1 =
        .ok (written twoRows ++ written otherRows ++ [[.int32 9, .null]])[calls.count .next]?) ∧
      ws₃.archive.store.has "g" = false := by
  -- the run, and what is asked of it
  have hrun : ∃ a b store store' wa wb w₁ w₂ w₃, create (twoColumns "f") {} = (.ok a, store) ∧
      create (twoColumns "g") store = (.ok b, store') ∧
      wa = runAt (@perform .verbatim twoRows)
        { writer := a, archive := { store := store' } } ∧ wa.1 = .ok () ∧
      wb = runAt (@perform .verbatim otherRows) { writer := b, archive := wa.2.archive } ∧
        wb.1 = .ok () ∧
      w₁ = runAt (@merge .verbatim wb.2.writer) { writer := wa.2.writer, archive := wb.2.archive } ∧
      w₁.1 = .ok () ∧
      w₂ = runAt (@perform .verbatim [.write [.int32 9, .null]]) w₁.2 ∧ w₂.1 = .ok () ∧
      w₃ = runAt (@close .verbatim) w₂.2 ∧ w₃.1 = .ok () ∧
      wa.2.writer.options = twoColumns "f" ∧ wb.2.writer.options = twoColumns "g" ∧
      wb.2.archive.store.find? "f" = wa.2.writer.file ∧
      wb.2.archive.store.find? "f.toast" = wa.2.writer.toastFile ∧ @Fits .verbatim w₃.2.writer := by
    refine ⟨_, _, _, _, _, _, _, _, _, rfl, rfl, rfl, by decide +kernel, rfl, by decide +kernel,
      rfl, by decide +kernel, rfl, by decide +kernel, rfl, by decide +kernel, by decide +kernel,
      by decide +kernel, by decide +kernel, by decide +kernel, by decide +kernel⟩
  obtain ⟨a, b, store, store', wa, wb, w₁, w₂, w₃, ha, hb, hwa, hwa', hwb, hwb', hw₁, hw₁', hw₂,
    hw₂', hw₃, hw₃', hfirst, hsecond, hpath, htoastPath, hfits⟩ := hrun
  have hlibrary := BlockLibrary.verbatim_restores
  obtain ⟨register, hreached, hours, htheirs⟩ :=
    @run_two .verbatim (.strict fun _ => True) hlibrary _ .rows _ _ _ _ _ _ _ _ _ wa.2 wb.2 rfl
      trivial trivial ha
      hb (runAt_eq hwa hwa') (runAt_eq hwb hwb')
  rw [perform_rows] at hours htheirs
  have hmerge := runAt_eq hw₁ hw₁'
  have hlater := runAt_eq hw₂ hw₂'
  have hclose := runAt_eq hw₃ hw₃'
  obtain ⟨hread, -, hgone, -⟩ := @merge_roundtrip .verbatim _ _ 0 1 hlibrary hreached
    _ _ _ _ hours htheirs (by rw [hfirst, hsecond]; decide)
    (by rw [hfirst, hsecond]; decide) _ _ _ hmerge _
    hlater hclose hfits {} rfl rfl (by intro schema h; cases h)
  obtain ⟨r, hopen, hnext, -⟩ :=
    hread ⟨by rw [hfirst]; exact hpath, by rw [hfirst]; exact fun _ => htoastPath⟩
  rw [hfirst] at hopen
  rw [hsecond] at hgone
  exact ⟨_, register, _, _, _, _, _, r, hreached, hours, htheirs, hmerge, hlater, hclose, hopen,
    hnext, hgone⟩

/-- A column of integers, and nothing out of line. -/
def oneColumn (fileName : String) : WriterOptions :=
  { twoColumns fileName with schema := [.ofKind "id" .int], toastThreshold := none }

omit [Library] in
/-- **A merge may delete the file that it writes**: the file `f.toast` has the name of the values
out of line of `f`, although the writer of `f` never made such a file. Once that writer was merged,
nothing that is merged into `f.toast` can be read from there. -/
theorem merge_roundtrip_path_deleted :
    ∃ archive register a b ws₁ ws₂, @Run .verbatim _ Note.rows
      (.strict fun _ => True) archive register ∧
      register 1 = some (a, [[.int32 2], [.int32 1]]) ∧ register 2 = some (b, [[.int32 3]]) ∧
      a.options = oneColumn "f.toast" ∧ b.options = oneColumn "g" ∧
      Path.same b.options.toastFileName a.options.fileName = false ∧
      Path.same a.options.toastFileName b.options.fileName = false ∧
      runAt (@merge .verbatim b) { writer := a, archive } = (.ok (), ws₁) ∧
      runAt (@close .verbatim) ws₁ = (.ok (), ws₂) ∧ @Fits .verbatim ws₂.writer ∧
      ∀ reading, Reader.ofFile ws₂.archive.store a.options.fileName reading =
        .error (.noSuchFile "f.toast") := by
  -- the third writer is made after the first was merged into the second
  have hrun : ∃ c a b store store' store'' wc wa w wb w₁ w₂, create (oneColumn "f") {} =
    (.ok c, store) ∧
      create (oneColumn "f.toast") store = (.ok a, store') ∧
      wc = runAt (@perform .verbatim [.write [.int32 1]])
        { writer := c, archive := { store := store' } } ∧
      wc.1 = .ok () ∧
      wa = runAt (@perform .verbatim [.write [.int32 2]]) { writer := a, archive := wc.2.archive } ∧
      wa.1 = .ok () ∧
      w = runAt (@merge .verbatim wc.2.writer) wa.2 ∧ w.1 = .ok () ∧
      create (oneColumn "g") w.2.archive.store = (.ok b, store'') ∧
      wb = runAt (@perform .verbatim [.write [.int32 3]])
        { writer := b, archive := { w.2.archive with store := store'' } } ∧
      wb.1 = .ok () ∧
      w₁ = runAt (@merge .verbatim wb.2.writer) { writer := w.2.writer, archive := wb.2.archive } ∧
      w₁.1 = .ok () ∧ w₂ = runAt (@close .verbatim) w₁.2 ∧ w₂.1 = .ok () ∧
      w.2.writer.options = oneColumn "f.toast" ∧ wb.2.writer.options = oneColumn "g" ∧
      @Fits .verbatim w₂.2.writer ∧ w₂.2.archive.store.foreign = false ∧
      w₂.2.archive.store.find? "f.toast" = none := by
    refine ⟨_, _, _, _, _, _, _, _, _, _, _, _, rfl, rfl, rfl, by decide +kernel, rfl,
      by decide +kernel, rfl, by decide +kernel, rfl, rfl, by decide +kernel, rfl,
      by decide +kernel, rfl, by decide +kernel, by decide +kernel, by decide +kernel,
      by decide +kernel, by decide +kernel, by decide +kernel⟩
  obtain ⟨c, a, b, store, store', store'', wc, wa, w, wb, w₁, w₂, hc, ha, hwc, hwc', hwa, hwa',
    hw, hw', hb, hwb, hwb', hw₁, hw₁', hw₂, hw₂', hfirst, hsecond, hfits, hforeign, hpath⟩ := hrun
  have hlibrary := BlockLibrary.verbatim_restores
  obtain ⟨register, hreached, htheirs, hours⟩ :=
    @run_two .verbatim (.strict fun _ => True) hlibrary _ .rows _ _ _ _ _ _ _ _ _ wc.2 wa.2 rfl
      trivial trivial hc
      ha (runAt_eq hwc hwc') (runAt_eq hwa hwa')
  have hmerged := @Run.merge .verbatim _ _ _ _ _ _ _ _ _ _ _ _ hreached hours htheirs
    (runAt_eq hw hw')
  have hmade := @Run.create .verbatim _ _ _ _ _ _ _ _ 2 hmerged trivial hb
  obtain ⟨-, hwritten⟩ := @Run.perform .verbatim _ _ 2 _ _ hlibrary _ _ _ _ _ hmade rfl
    (runAt_eq hwb hwb')
  refine ⟨_, _, w.2.writer, wb.2.writer, w₁.2, w₂.2, hwritten, rfl, rfl, hfirst, hsecond, ?_, ?_,
    runAt_eq hw₁ hw₁', runAt_eq hw₂ hw₂', hfits, ?_⟩
  · rw [hfirst, hsecond]
    decide
  · rw [hfirst, hsecond]
    decide
  · intro reading
    rw [hfirst]
    exact Reader.ofFile_nowhere hforeign hpath reading

end ColumnFile.Writer
