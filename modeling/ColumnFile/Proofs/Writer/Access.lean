import ColumnFile.Proofs.Writer.Session

/-! # The ways of reading a file agree

A reader gives the rows of a file in turn, a row by its place, and a group as a whole. What it
hides, it hides from the rows in turn and from the rows by their places, and no request changes the
answer to another one.

* **`FileFooter.keeps`**, **`ReaderOptions.hides`** — the groups that a filter keeps, and the rows
  that count as deleted.
* **`Writer.requests_agree`** — the answers of a reader of a file that was closed, after any
  requests. -/

namespace ColumnFile

/-- Whether a filter keeps a group of a file; without a filter all are kept. -/
def FileFooter.keeps (footer : FileFooter) (filter : Option GroupFilter) (index : Nat) : Bool :=
  filter.all fun keep => (footer.stripes[index]?).all fun info => keep index info.statistics

/-- Whether a row of the file counts as deleted. -/
def ReaderOptions.hides (options : ReaderOptions) (row : Nat) : Bool :=
  options.deleted.any (·.get row)

/-- **A reader keeps** the groups that its filter keeps. -/
theorem Reader.keeps_eq (r : Reader) : r.keeps = r.footer.keeps r.options.filter := by
  funext index
  unfold Reader.keeps FileFooter.keeps
  cases r.options.filter with
  | none => rfl
  | some keep =>
      rw [Option.all_some]
      cases r.footer.stripes[index]? with
      | none => rfl
      | some info => rfl

namespace Writer

open Writing

variable [Library] {names : String → Prop} {roster : Roster} {archive : Archive} {i : Nat}
  {w : Writer}
  {l : Ledger} {ws : Workspace}

/-- **The ways of reading a file agree.** Any number of writers share the files of one store; they
take rows, are flushed, merged and closed, and nothing fails. When one of them is closed whose paths
lead to its files, as they do if no name is another's with the ending of a file of values, its file
is opened, whatever memory the reader is given, whatever filter and whatever rows that count as
deleted. It has the rows of the writer, in groups as its directory tells. After any requests for
rows in turn, for rows by their places, and for groups, the next row is the one behind those that
were asked for in turn, among the rows that are not deleted, of the groups that the filter keeps,
and there is none behind the last of them; a row by its place is the row of the writer there, or
none if it is deleted; and a group has the rows of the writer from its first one on, deleted or
not. -/
theorem requests_agree (hlibrary : BlockLibrary.Restores)
    (hsession : Session (.strict names) archive roster) (hmember : roster i = some (w, l))
    (hpaths : (Rules.strict names).Apart ∨ w.Leads archive.store)
    (hclose : runAt close { writer := w, archive } = (.ok (), ws)) (hfits : ws.writer.Fits)
    (reading : ReaderOptions)
    (hschema : ∀ schema, reading.schema = some schema → schema = w.options.schema) :
    ∃ r groups, Reader.ofFile ws.archive.store w.options.fileName reading = .ok r ∧
      groups.flatten = l.rows ∧ r.footer.stripes.map (·.rows) = groups.map List.length ∧
      ∀ requests : List Reader.Request,
        ((r.served ws.archive.store requests).next ws.archive.store).1 =
          .ok (shownFrom (r.footer.keeps reading.filter) reading.hides 0 0 groups)[requests.count
            .next]? ∧
        (∀ place, place < l.rows.length →
          ((r.served ws.archive.store requests).row? ws.archive.store place).1 =
            .ok (if reading.hides place then none else l.rows[place]?)) ∧
        ∀ k rows, groups[k]? = some rows →
          ∃ g, ((r.served ws.archive.store requests).group ws.archive.store k).1 = .ok g ∧
            g.rows = rows.length ∧ g.rowOffset = (groups.take k).flatten.length ∧
            ∀ j, j < rows.length → ∃ row, l.rows[g.rowOffset + j]? = some row ∧
            g.row j = .ok row := by
  have hleads := hsession.led hlibrary hmember hpaths
  have hclean := (hsession.clean hmember).flushed
  obtain ⟨footer, hfiled, hcolumns⟩ := hsession.filed hlibrary hmember hleads hclose hfits
    (close_rows_lt hlibrary ((hsession.held hlibrary).follows i w l hmember)
      (hsession.clean hmember).backed
      hclose hfits)
  have hcounted : l.flushed.counted = l.rows := by rw [hclean.counted, l.rows_flushed]
  have hrows : (l.flushed.stripes.map Batch.rows).flatten = l.rows := by
    rw [← List.flatMap_def]
    exact l.written_flushed
  rw [← hcolumns] at hschema
  obtain ⟨r, hopen, hfooter, hoptions, hfresh, hserves⟩ :=
    hfiled.serves (by rw [hcounted, l.written_flushed]) (checkSchema_ok hschema)
  -- what the reader hides is told by its options
  have hkeeps : r.keeps = r.footer.keeps reading.filter := by rw [r.keeps_eq, hoptions]
  have hhides : r.isDeleted = reading.hides := by
    rw [← hoptions]
    rfl
  have hawaits := hserves.awaits hfresh
  rw [hkeeps, hhides] at hawaits
  obtain ⟨file, -, hstripes⟩ := hserves.stripes
  refine ⟨r, l.flushed.stripes.map Batch.rows, hopen, hrows, FileFooter.counts_of_finds hstripes,
    ?_⟩
  intro requests
  refine ⟨Reader.next_served hawaits requests, ?_, ?_⟩
  · intro place hplace
    rw [← hrows] at hplace ⊢
    exact Reader.row?_served hawaits requests hplace
  · intro k rows hk
    rw [← hrows]
    exact Reader.group_served hawaits requests hk

omit [Library] in
/-- Two groups of one row, the first of which counts as deleted. -/
theorem requests_agree_deleted :
    ∃ (ws : Workspace) (r : Reader) (hidden : Bitmap), hidden = Bitmap.ofList [true] ∧
      Reader.ofFile ws.archive.store "f" { deleted := some hidden } = .ok r ∧
      ∀ requests : List Reader.Request,
        (@Reader.next .verbatim (@Reader.served .verbatim ws.archive.store requests r)
          ws.archive.store).1 =
            .ok ([[.null, .ofString "d"]] : List Row)[requests.count .next]? ∧
          (@Reader.row? .verbatim (@Reader.served .verbatim ws.archive.store requests r)
            ws.archive.store 0).1 = .ok none ∧
          (@Reader.row? .verbatim (@Reader.served .verbatim ws.archive.store requests r)
            ws.archive.store 1).1 = .ok (some [.null, .ofString "d"]) := by
  -- the calls are evaluated; what is read follows from the theorem
  have hrun : ∃ w store written closed, create (twoColumns "f") {} = (.ok w, store) ∧
      written = runAt (@perform .verbatim twoRows) { writer := w, archive := { store } } ∧
      written.1 = .ok () ∧ closed = runAt (@close .verbatim) written.2 ∧ closed.1 = .ok () ∧
      written.2.writer.options = twoColumns "f" ∧ @Fits .verbatim closed.2.writer := by
    refine ⟨_, _, _, _, rfl, rfl, by decide +kernel, rfl, by decide +kernel, by decide +kernel,
      by decide +kernel⟩
  obtain ⟨w, store, written, closed, hcreate, hwritten, hcalls, hclosed, hclose, hoptions, hfits⟩ :=
    hrun
  have hlibrary := BlockLibrary.verbatim_restores
  have hstart : @Session .verbatim (.strict fun name => name = "f") { store := {} } fun _ => none :=
    @Run.start .verbatim _ _ _ _ rfl
  have hmade := @Run.create .verbatim _ _ _ _ _ (twoColumns "f") _ _ 0 hstart rfl hcreate
  obtain ⟨-, hcalled⟩ :=
    @Run.perform .verbatim _ _ 0 _ _ hlibrary _ _ _ _ _ hmade rfl (runAt_eq hwritten hcalls)
  have hapart : (Rules.strict fun name => name = "f").Apart := by
    rintro _ _ rfl rfl
    decide
  obtain ⟨r, groups, hopen, hrows, -, hanswers⟩ :=
    @requests_agree .verbatim _ _ _ 0 _ _ _ hlibrary hcalled rfl
    (.inl hapart) (runAt_eq hclosed hclose) hfits { deleted := some (Bitmap.ofList [true]) }
      (by intro schema h; cases h)
  rw [hoptions] at hopen
  -- the first row is deleted, so the second one is the only one that is shown
  have hwritten : groups.flatten = [[.int32 7, .ofString "abc"], [.null, .ofString "d"]] := by
    rw [hrows, rows_perform]
    rfl
  refine ⟨closed.2, r, _, rfl, hopen, ?_⟩
  intro requests
  obtain ⟨hnext, hrow, -⟩ := hanswers requests
  rw [← hrows, hwritten] at hrow
  have hall : r.footer.keeps none = fun _ => true := rfl
  rw [hall, shownFrom_true, hwritten] at hnext
  exact ⟨hnext, hrow 0 (by decide), hrow 1 (by decide)⟩

end Writer

end ColumnFile
