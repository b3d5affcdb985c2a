import ColumnFile.Proofs.Writer.Close

/-! # Merging keeps the rows of both writers

The stripes of the other writer are copied octet by octet, and so are its values out of line; the
entries of the directory only change where they are. What it still kept becomes a stripe of its own,
and then its paths are deleted. A merge that fails on the way keeps the stripes that came over until
then.

* **`Writer.copyToast_stored`**, **`Writer.copyStripes_stored`**, **`Writer.takeRows_stored`** — the
  three ways in which rows come over; **`Writer.adopt_follows`** is all of them.
* **`Writer.Merges`** — what a merge leaves alone, and the paths that it deletes.
* **`Writer.merge_follows`** — the writer holds its rows, and behind them those of the other.
* **`Writer.merge_failed`** — how far a merge came that failed. -/

namespace ColumnFile.Writer

open Writing

variable {ws ws' : Workspace} {other : Writer}

/-! ## (1) The steps of a merge -/

/-- **Writers that may be merged** are open, have different files and the same columns. -/
theorem checkMerge_ok {w : Writer} (h : w.checkMerge other = .ok ()) :
    w.closed = false ∧ other.closed = false ∧
      Path.same w.options.fileName other.options.fileName = false ∧
      w.options.schema = other.options.schema ∧ w.options.format = other.options.format := by
  unfold checkMerge at h
  obtain ⟨⟨⟩, hours, h⟩ := bind_eq_ok h
  obtain ⟨⟨⟩, htheirs, h⟩ := bind_eq_ok h
  by_cases hrelation : w.options.relId ≠ other.options.relId
  · rw [if_pos hrelation] at h
    cases h
  rw [if_neg hrelation] at h
  by_cases hself : Path.same w.options.fileName other.options.fileName = true
  · rw [if_pos hself] at h
    cases h
  rw [if_neg hself] at h
  by_cases hschema : w.options.schema ≠ other.options.schema ∨
    w.options.format ≠ other.options.format
  · rw [if_pos hschema] at h
    cases h
  obtain ⟨hsame, hformat⟩ := not_or.mp hschema
  exact ⟨checkOpen_ok hours, checkOpen_ok htheirs, Bool.not_eq_true _ ▸ hself,
    Classical.not_not.mp hsame, Classical.not_not.mp hformat⟩

/-- **The values out of line were copied**, if the other writer has any. -/
theorem copyToast_ok (h : runAt (copyToast other) ws = (.ok (), ws')) :
    (other.toastOffset = 0 ∧ ws' = ws) ∨ ∃ theirs ours values, 0 < other.toastOffset ∧
      other.toastFile = some theirs ∧ ws.writer.toastFile = some ours ∧
      ws.archive.store.read theirs 0 other.toastOffset = .ok values ∧
      ws' =
        { writer := { ws.writer with toastOffset := ws.writer.toastOffset + values.length }
          archive :=
            { ws.archive with
              store := ws.archive.store.write ours ws.writer.toastOffset values } } := by
  unfold copyToast at h
  by_cases hsome : 0 < other.toastOffset
  · rw [if_pos hsome] at h
    have h := writer_ok h
    cases htheirs : other.toastFile with
    | none =>
        rw [htheirs] at h
        exact (throw_ok h).elim
    | some theirs =>
        cases hours : ws.writer.toastFile with
        | none =>
            rw [htheirs, hours] at h
            exact (throw_ok h).elim
        | some ours =>
            rw [htheirs, hours] at h
            have h := store_ok h
            obtain ⟨values, hread, h⟩ := lift_ok h
            have h := setStore_ok h
            cases h
            exact .inr ⟨theirs, ours, values, hsome, rfl, rfl, hread, rfl⟩
  · rw [if_neg hsome] at h
    cases h
    exact .inl ⟨Nat.eq_zero_of_not_pos hsome, rfl⟩

/-- **A stripe was copied**, and listed where it is now. -/
theorem copyStripe_ok {toastBase : Nat} {info : StripeInformation}
    (h : runAt (copyStripe other toastBase info) ws = (.ok (), ws')) :
    ∃ theirs stripe w₁, other.file = some theirs ∧
      ws.archive.store.read theirs info.offset info.length = .ok stripe ∧
      runAt (putData stripe) ws = (.ok (), w₁) ∧
      ws' = { w₁ with
        writer :=
          { w₁.writer with
            stripes := w₁.writer.stripes ++
              [{ info with offset := w₁.writer.offset,
                           toastOffset := toastBase + info.toastOffset }]
            offset := w₁.writer.offset + stripe.length } } := by
  unfold copyStripe at h
  cases htheirs : other.file with
  | none =>
      rw [htheirs] at h
      exact (throw_ok h).elim
  | some theirs =>
      rw [htheirs] at h
      have h := store_ok h
      obtain ⟨stripe, hread, h⟩ := lift_ok h
      obtain ⟨⟨⟩, w₁, hput, h⟩ := bind_ok h
      cases h
      exact ⟨theirs, stripe, w₁, rfl, hread, hput, rfl⟩

/-- **The statistics were taken over.** -/
theorem takeStatistics_ok (h : runAt (takeStatistics other) ws = (.ok (), ws')) :
    ∃ summaryStatistics fileStatistics, ws.writer.mergedSummary other = .ok summaryStatistics ∧
      ws.writer.fileStatistics.merge other.fileStatistics = .ok fileStatistics ∧
      ws' = { ws with
        writer :=
          { ws.writer with
            summaryStatistics, fileStatistics, tuples := ws.writer.tuples + other.tuples } } := by
  unfold takeStatistics at h
  have h := writer_ok h
  obtain ⟨summaryStatistics, hsummary, h⟩ := lift_ok h
  have h := setWriter_ok h
  obtain ⟨fileStatistics, hmerge, h⟩ := lift_ok h
  cases h
  exact ⟨summaryStatistics, fileStatistics, hsummary, hmerge, rfl⟩

/-- **The paths of the other writer were deleted.** -/
theorem deleteFiles_ok (h : runAt (deleteFiles other) ws = (.ok (), ws')) :
    ∃ rest store, ws.archive.store.delete other.options.fileName = .ok rest ∧
      ws' = { ws with archive.store := store } ∧
      ((rest.has other.options.toastFileName = false ∧ store = rest) ∨
        rest.delete other.options.toastFileName = .ok store) := by
  unfold deleteFiles at h
  have h := store_ok h
  obtain ⟨rest, hdelete, h⟩ := lift_ok h
  have h := setStore_ok h
  by_cases hhas : rest.has other.options.toastFileName = true
  · rw [if_pos hhas] at h
    obtain ⟨store, hdelete', h⟩ := lift_ok h
    cases h
    exact ⟨rest, store, hdelete, rfl, .inr hdelete'⟩
  · rw [if_neg hhas] at h
    cases h
    exact ⟨rest, rest, hdelete, rfl, .inl ⟨Bool.not_eq_true _ ▸ hhas, rfl⟩⟩

/-- **Deleting paths** changes no octets and no writer, whatever comes of it. -/
theorem deleteFiles_store {outcome : Except Fault Unit}
    (h : runAt (deleteFiles other) ws = (outcome, ws')) :
    ∃ store, ws' = { ws with archive.store := store } := by
  unfold deleteFiles at h
  have h := store_ok h
  rcases lift_cases h with ⟨-, -, -, rfl⟩ | ⟨rest, -, h⟩
  · exact ⟨_, rfl⟩
  have h := setStore_ok h
  by_cases hhas : rest.has other.options.toastFileName = true
  · rw [if_pos hhas] at h
    rcases lift_cases h with ⟨-, -, -, rfl⟩ | ⟨last, -, h⟩
    · exact ⟨_, rfl⟩
    · cases h
      exact ⟨_, rfl⟩
  · rw [if_neg hhas] at h
    cases h
    exact ⟨_, rfl⟩

variable {e : Fault}

/-- **Values out of line that were not copied** change nothing. -/
theorem copyToast_failed (h : runAt (copyToast other) ws = (.error e, ws')) : ws' = ws := by
  unfold copyToast at h
  by_cases hsome : 0 < other.toastOffset
  · rw [if_pos hsome] at h
    have h := writer_ok h
    cases htheirs : other.toastFile with
    | none =>
        rw [htheirs] at h
        cases h
        rfl
    | some theirs =>
        cases hours : ws.writer.toastFile with
        | none =>
            rw [htheirs, hours] at h
            cases h
            rfl
        | some ours =>
            rw [htheirs, hours] at h
            have h := store_ok h
            rcases lift_error h with ⟨-, rfl⟩ | ⟨values, -, h⟩
            · rfl
            · have h := setStore_ok h
              cases h
  · rw [if_neg hsome] at h
    cases h

/-- **A stripe that was not copied**: no file has changed. -/
theorem copyStripe_failed {toastBase : Nat} {info : StripeInformation}
    (h : runAt (copyStripe other toastBase info) ws = (.error e, ws')) :
    ∃ sink log, ws' =
      { writer := { ws.writer with sink }, archive := { ws.archive with log } } := by
  unfold copyStripe at h
  cases htheirs : other.file with
  | none =>
      rw [htheirs] at h
      cases h
      exact ⟨ws.writer.sink, ws.archive.log, rfl⟩
  | some theirs =>
      rw [htheirs] at h
      have h := store_ok h
      rcases lift_error h with ⟨-, rfl⟩ | ⟨stripe, -, h⟩
      · exact ⟨ws'.writer.sink, ws'.archive.log, rfl⟩
      · rcases bind_error h with hput | ⟨⟨⟩, w₁, -, h⟩
        · exact (putData_failed hput).1
        · cases h

/-- **Statistics that were not taken over**: those for the summary could not be joined, and nothing
changed; or it was those of the file, which have other columns then. -/
theorem takeStatistics_failed (h : runAt (takeStatistics other) ws = (.error e, ws')) :
    ws' = ws ∨ other.fileStatistics.columns.length ≠ ws.writer.fileStatistics.columns.length := by
  unfold takeStatistics at h
  have h := writer_ok h
  rcases lift_error h with ⟨-, rfl⟩ | ⟨summaryStatistics, -, h⟩
  · exact .inl rfl
  have h := setWriter_ok h
  rcases lift_error h with ⟨hmerge, -⟩ | ⟨fileStatistics, -, h⟩
  · unfold Collector.merge at hmerge
    by_cases hcolumns : other.fileStatistics.columns.length ≠
      ws.writer.fileStatistics.columns.length
    · exact .inr hcolumns
    · rw [if_neg hcolumns] at hmerge
      cases hmerge
  · cases h

/-- **Paths that were not deleted**: nothing changed in files of one's own. -/
theorem deleteFiles_failed (hstore : ws.archive.store.foreign = false)
    (h : runAt (deleteFiles other) ws = (.error e, ws')) : ws' = ws := by
  unfold deleteFiles at h
  have h := store_ok h
  rcases lift_error h with ⟨-, rfl⟩ | ⟨rest, hrest, h⟩
  · rfl
  have h := setStore_ok h
  by_cases hhas : rest.has other.options.toastFileName = true
  · -- a path that is there is deleted
    rw [if_pos hhas] at h
    rcases lift_error h with ⟨hdelete, -⟩ | ⟨store, -, h⟩
    · have hforeign : rest.foreign = false := (Store.contents_delete hrest).2.trans hstore
      rw [Store.has, hforeign, Bool.false_and, Bool.or_false] at hhas
      obtain ⟨file, hfile⟩ := Option.isSome_iff_exists.mp hhas
      rw [Store.delete_of_some hforeign hfile] at hdelete
      cases hdelete
    · cases h
  · rw [if_neg hhas] at h
    cases h

variable [Library] {store : Store} {batches theirs : List Batch} {b : Batch} {rows : List Row}
  {l l' : Ledger} {outcome : Except Fault Unit}

/-- **The rows that the other writer kept** were put as a stripe, if there are any. -/
theorem takeRows_ok (h : runAt (takeRows other) ws = (.ok (), ws')) :
    (other.columns.rows = 0 ∧ ws' = ws) ∨ ∃ columns, 0 < other.columns.rows ∧
      runAt (putStripe other.columns other.stripeStatistics.finish) ws = (.ok columns, ws') := by
  unfold takeRows at h
  by_cases hrows : 0 < other.columns.rows
  · rw [if_pos hrows] at h
    obtain ⟨fresh, -, h⟩ := lift_ok h
    obtain ⟨columns, w₁, hput, h⟩ := bind_ok h
    cases h
    exact .inr ⟨columns, hrows, hput⟩
  · rw [if_neg hrows] at h
    cases h
    exact .inl ⟨Nat.eq_zero_of_not_pos hrows, rfl⟩

/-- **Rows that were not put**: nothing changed, or their stripe was refused. -/
theorem takeRows_failed (h : runAt (takeRows other) ws = (.error e, ws')) :
    ws' = ws ∨ runAt (putStripe other.columns other.stripeStatistics.finish) ws =
      (.error e, ws') := by
  unfold takeRows at h
  by_cases hrows : 0 < other.columns.rows
  · rw [if_pos hrows] at h
    rcases lift_error h with ⟨-, rfl⟩ | ⟨fresh, -, h⟩
    · exact .inl rfl
    · rcases bind_error h with hput | ⟨columns, w₁, -, h⟩
      · exact .inr hput
      · cases h
  · rw [if_neg hrows] at h
    cases h

/-- Takes over the values out of line, the stripes and the rows of another writer. -/
def adopt (other : Writer) : Writing Unit := do
  let toastBase := (← writer).toastOffset
  copyToast other
  other.stripes.forM (copyStripe other toastBase)
  takeRows other

/-- **A merge** is a flush, and then the stripes, the rows and the statistics of the other writer
are taken over. -/
theorem merge_eq (other : Writer) :
    merge other = (do
      let w ← writer
      lift (w.checkMerge other)
      flush
      adopt other
      takeStatistics other
      deleteFiles other) := by
  simp only [merge, adopt, bind_assoc]

/-- **A merge**: the writer was flushed, then the stripes and the rows of the other were taken over,
its statistics were, and its paths were deleted. -/
theorem merge_ok (h : runAt (merge other) ws = (.ok (), ws')) :
    ws.writer.checkMerge other = .ok () ∧ ∃ w₁ w₂ w₃, runAt flush ws = (.ok (), w₁) ∧
      runAt (adopt other) w₁ = (.ok (), w₂) ∧ runAt (takeStatistics other) w₂ = (.ok (), w₃) ∧
      runAt (deleteFiles other) w₃ = (.ok (), ws') := by
  rw [merge_eq] at h
  have h := writer_ok h
  obtain ⟨⟨⟩, hcheck, h⟩ := lift_ok h
  obtain ⟨⟨⟩, w₁, hflush, h⟩ := bind_ok h
  obtain ⟨⟨⟩, w₂, hadopt, h⟩ := bind_ok h
  obtain ⟨⟨⟩, w₃, hstatistics, h⟩ := bind_ok h
  exact ⟨hcheck, w₁, w₂, w₃, hflush, hadopt, hstatistics, h⟩

/-! ## (2) What comes over -/

/-- **Files that are apart**: neither writer owns one of the other. -/
def Apart (w other : Writer) : Prop := ∀ file, w.Owns file → ¬ other.Owns file

/-- **An entry is ready to be copied**: its stripe is in the file of the other writer, and its
values out of line are already in the files of this one, behind a place. -/
def Ready (w other : Writer) (store : Store) (toastBase : Nat) (info : StripeInformation)
    (b : Batch) :
    Prop :=
  toastBase + info.toastOffset + info.toastLength ≤ w.toastOffset ∧
    ∃ theirs, other.file = some theirs ∧
      { info with toastOffset := toastBase + info.toastOffset }.Placed store theirs w.toastFile
        w.options.schema w.options.format b

/-- **Copied values out of line** are those of the other writer, behind those so far; with them all
its stripes are ready. -/
theorem copyToast_stored (h : runAt (copyToast other) ws = (.ok (), ws'))
    (hours : ws.writer.Stored ws.archive.store batches)
    (htheirs : other.Stored ws.archive.store theirs) (hapart : ws.writer.Apart other)
    (hschema : ws.writer.options.schema = other.options.schema)
    (hformat : ws.writer.options.format = other.options.format) :
    ws'.writer.Stored ws'.archive.store batches ∧
      Store.Writes ws.writer.Owns ws.archive.store ws'.archive.store ∧
      List.Forall₂ (ws'.writer.Ready other ws'.archive.store ws.writer.toastOffset)
        other.stripes theirs ∧
      ∃ toastOffset, ws'.writer = { ws.writer with toastOffset } := by
  obtain ⟨f, hf, -, -, -, hplaced⟩ := htheirs.file
  have hmembers := partners_mem hplaced
  rcases copyToast_ok h with ⟨hnone, rfl⟩ | ⟨t, ours, values, hsome, ht, hto, hread, rfl⟩
  · -- none of its stripes has values out of line
    refine ⟨hours, Store.Writes.refl _ _, hmembers.imp ?_, _, rfl⟩
    rintro info b ⟨hinfo, -, stripe, out, hd, hstatistics, hstripe, -⟩
    have hwithin := htheirs.within info hinfo
    have hlength := hd.toastLength
    rw [← hschema] at hd hstatistics
    rw [← hformat] at hd
    refine ⟨by omega, f, hf, stripe, out, hd.moved _ _, hstatistics, hstripe, ?_⟩
    intro hne
    have hpositive := List.length_pos_iff.mpr hne
    omega
  · obtain ⟨-, hall⟩ := htheirs.toast t ht
    obtain ⟨hlt, hbase⟩ := hours.toast ours hto
    -- the values of the stripes of the other writer were read
    have hslice := (Store.read_eq_ok hours.foreign).mp hread
    have hlength := Bytes.length_of_slice? hslice
    have hwrites : Store.Writes ws.writer.Owns ws.archive.store
        (ws.archive.store.write ours ws.writer.toastOffset values) :=
      Store.writes_write (.inr hto) _ _
    have hgrown : (ws.archive.store.write ours ws.writer.toastOffset values).get ours =
        (ws.archive.store.get ours).overwrite ws.writer.toastOffset values := by
      rw [Store.get_write_self hours.foreign hlt]
    have hother : ∀ file, file ≠ ours →
        (ws.archive.store.write ours ws.writer.toastOffset values).get file =
          ws.archive.store.get file :=
      fun file hne => Store.get_write_of_ne hne _ _
    refine ⟨hours.growToast hwrites ?_ ?_ ?_, hwrites, hmembers.imp ?_, _, rfl⟩
    · intro file hfile
      obtain ⟨f', hf', -, -, hdiffer, -⟩ := hours.file
      refine hother file ?_
      rintro rfl
      cases hfile.symm.trans hf'
      exact hdiffer hto
    · intro t' ht'
      cases hto.symm.trans ht'
      exact hgrown
    · intro hnone
      rw [hto] at hnone
      cases hnone
    · rintro info b ⟨hinfo, -, stripe, out, hd, hstatistics, hstripe, hout⟩
      have hwithin := htheirs.within info hinfo
      have hend : info.toastOffset + out.length ≤ other.toastOffset := by
        rw [hd.toastLength]
        exact hwithin
      rw [← hschema] at hd hstatistics
      rw [← hformat] at hd
      refine ⟨?_, f, hf, stripe, out, hd.moved _ _, hstatistics, ?_, ?_⟩
      · show ws.writer.toastOffset + info.toastOffset + info.toastLength ≤
          ws.writer.toastOffset + values.length
        rw [hlength]
        omega
      · show ((ws.archive.store.write ours ws.writer.toastOffset values).get f).slice? _ _ = _
        rw [hother f (by rintro rfl; exact hapart f (.inr hto) (.inl hf))]
        exact hstripe
      · intro hne
        obtain ⟨t', ht', hvalues⟩ := hout hne
        cases ht.symm.trans ht'
        refine ⟨ours, hto, ?_⟩
        show ((ws.archive.store.write ours ws.writer.toastOffset values).get ours).slice? _ _ = _
        rw [hgrown]
        refine Bytes.slice?_slice? (Bytes.slice?_overwrite _ hbase)
          (Bytes.slice?_of_take ?_ hend hvalues)
        rw [Bytes.eq_take_of_slice? hslice, List.take_take, Nat.min_self]

/-- **A copied stripe** is one more batch. -/
theorem copyStripe_stored {toastBase : Nat} {info : StripeInformation}
    (h : runAt (copyStripe other toastBase info) ws = (.ok (), ws'))
    (hours : ws.writer.Stored ws.archive.store batches)
    (hready : ws.writer.Ready other ws.archive.store toastBase info b) :
    ws'.writer.Stored ws'.archive.store (batches ++ [b]) ∧
      Store.Writes ws.writer.Owns ws.archive.store ws'.archive.store ∧
      (∀ t, ws.writer.toastFile = some t → ws'.archive.store.get t = ws.archive.store.get t) ∧
      ∃ stripes offset sink, ws'.writer = { ws.writer with stripes, offset, sink } := by
  obtain ⟨theirs, stripe, w₁, htheirs, hread, hput, rfl⟩ := copyStripe_ok h
  obtain ⟨hwithin, theirs', htheirs', stripe', out, hd, hstatistics, hstripe, hout⟩ := hready
  cases htheirs.symm.trans htheirs'
  obtain ⟨f, sink, log, store, rfl, hf, hwrites, hgrown, hkept⟩ := putData_stored hput hours
  -- the octets that were read are those that the entry describes
  have hsame : stripe = stripe' := by
    have hslice := (Store.read_eq_ok hours.foreign).mp hread
    have hlength : stripe'.length = info.length := hd.length
    rw [← hlength] at hslice
    exact Option.some.inj (hslice.symm.trans hstripe)
  rw [hsame] at hgrown ⊢
  refine ⟨?_, hwrites, hkept, _, _, sink, rfl⟩
  have hadded := hours.addStripe hwrites hf hgrown hkept
    (hd.moved ws.writer.offset _) hstatistics rfl
    hwithin hout
  have hlength : stripe'.length = info.length := hd.length
  rw [hlength]
  exact hadded.congr rfl rfl rfl rfl rfl rfl

/-- **Copied stripes** are as many more batches; those that were copied before one was not stay. -/
theorem copyStripes_stored {toastBase : Nat} {infos : List StripeInformation}
    (h : runAt (infos.forM (copyStripe other toastBase)) ws = (outcome, ws'))
    (hours : ws.writer.Stored ws.archive.store batches) (hapart : ws.writer.Apart other)
    (hready : List.Forall₂ (ws.writer.Ready other ws.archive.store toastBase) infos theirs) :
    (∃ n ≤ theirs.length, ws'.writer.Stored ws'.archive.store (batches ++ theirs.take n) ∧
        (outcome = .ok () → n = theirs.length)) ∧
      Store.Writes ws.writer.Owns ws.archive.store ws'.archive.store ∧
      ∃ stripes offset sink, ws'.writer = { ws.writer with stripes, offset, sink } := by
  induction infos generalizing ws batches theirs with
  | nil =>
      cases hready
      cases h
      refine ⟨⟨0, Nat.le_refl 0, ?_, fun _ => rfl⟩, Store.Writes.refl _ _, _, _,
        ws'.writer.sink, rfl⟩
      rw [List.take_nil, List.append_nil]
      exact hours
  | cons info infos ih =>
      cases hready with
      | @cons _ first _ rest hfirst hrest =>
          change runAt (copyStripe other toastBase info >>= fun _ =>
            infos.forM (copyStripe other toastBase)) ws =
            (outcome, ws') at h
          rw [runAt_bind] at h
          generalize hcopy : runAt (copyStripe other toastBase info) ws = result at h
          obtain ⟨copied, w₁⟩ := result
          cases copied with
          | error e =>
              cases h
              obtain ⟨sink, log, rfl⟩ := copyStripe_failed hcopy
              refine ⟨⟨0, Nat.zero_le _, ?_, by intro hok; cases hok⟩, Store.Writes.refl _ _, _, _,
                sink, rfl⟩
              rw [List.take_zero, List.append_nil]
              exact hours.congr rfl rfl rfl rfl rfl rfl
          | ok u =>
              obtain ⟨hstored, hwrites, hkept, stripes, offset, sink, hwriter⟩ :=
                copyStripe_stored hcopy hours hfirst
              have howns : w₁.writer.Owns = ws.writer.Owns := by rw [hwriter]; rfl
              -- the stripes that are left are as ready as before
              have hready' : List.Forall₂ (w₁.writer.Ready other w₁.archive.store toastBase)
                infos rest := by
                refine hrest.imp ?_
                rintro info b ⟨hwithin, f, hf, hplaced⟩
                rw [hwriter]
                refine ⟨hwithin, f, hf, ?_⟩
                exact hplaced.frame (hwrites.others f fun hown => hapart f hown (.inl hf)) hkept
              have hapart' : w₁.writer.Apart other := by
                intro file hown
                rw [howns] at hown
                exact hapart file hown
              obtain ⟨⟨n, hle, hstored', hall⟩, hwrites', stripes', offset', sink', hwriter'⟩ :=
                ih h hstored hapart' hready'
              rw [List.append_assoc] at hstored'
              rw [howns] at hwrites'
              refine ⟨⟨n + 1, Nat.succ_le_succ hle, hstored',
                fun hok => by rw [hall hok, List.length_cons]⟩, hwrites.trans hwrites', stripes',
                offset', sink', ?_⟩
              rw [hwriter', hwriter]

/-- **The rows that the other writer kept** are one more batch, if there are any; rows that were
refused change nothing. -/
theorem takeRows_stored (hlibrary : BlockLibrary.Restores)
    (h : runAt (takeRows other) ws = (outcome, ws'))
    (hours : ws.writer.Stored ws.archive.store batches) (htheirs : other.Follows store l')
    (hschema : ws.writer.options.schema = other.options.schema)
    (hformat : ws.writer.options.format = other.options.format) :
    (∃ n, ws'.writer.Stored ws'.archive.store (batches ++ l'.pending.take n) ∧
        (outcome = .ok () → n = l'.pending.length)) ∧
      Store.Writes ws.writer.Owns ws.archive.store ws'.archive.store ∧
      ∃ offset toastOffset stripes sink, ws'.writer =
        { ws.writer with offset, toastOffset, stripes, sink } := by
  have hcount := htheirs.keeps.rows_eq htheirs.valid
  -- nothing came over
  have hstay : ws.writer.Stored ws.archive.store (batches ++ l'.pending.take 0) := by
    rw [List.take_zero, List.append_nil]
    exact hours
  cases outcome with
  | error e =>
      have hput := takeRows_failed h
      rcases hput with rfl | hput
      · exact ⟨⟨0, hstay, by intro hok; cases hok⟩, Store.Writes.refl _ _, _, _, _,
          ws'.writer.sink, rfl⟩
      · obtain ⟨hstored, hwrites, sink, hwriter⟩ := putStripe_refused hput hstay
        exact ⟨⟨0, hstored, by intro hok; cases hok⟩, hwrites, _, _, _, sink, hwriter⟩
  | ok u =>
      rcases takeRows_ok h with ⟨hnone, rfl⟩ | ⟨columns, hsome, hput⟩
      · have hkept : l'.kept = [] := List.length_eq_zero_iff.mp (hcount.symm.trans hnone)
        refine ⟨⟨0, hstay, fun _ => ?_⟩, Store.Writes.refl _ _, _, _, _, ws'.writer.sink, rfl⟩
        rw [Ledger.pending_of_nil hkept]
        rfl
      · have hkept : l'.kept ≠ [] := by
          intro hkept
          rw [hcount, hkept] at hsome
          exact Nat.lt_irrefl 0 hsome
        obtain ⟨cells, hcells, hshows⟩ := htheirs.keeps.cells
        have hstatistics := htheirs.stripeStatistics.finish
        have hcolumns := (WriterOptions.validate_ok htheirs.valid).1
        rw [← hschema] at hcells hshows hcolumns hstatistics
        rw [← hformat] at hcells
        obtain ⟨-, hstored, hwrites, hwriter⟩ :=
          putStripe_stored (b := { rows := l'.kept, besides := l'.stale }) hlibrary hput hours
            hcells hshows
            hcolumns hstatistics
        refine ⟨⟨1, ?_, fun _ => ?_⟩, hwrites, hwriter⟩
        · rw [Ledger.pending_of_ne hkept]
          exact hstored
        · rw [Ledger.pending_of_ne hkept]
          rfl

/-- **What comes over**: as many of the batches of the other writer as were taken over before the
first failure. -/
theorem adopt_follows (hlibrary : BlockLibrary.Restores)
    (h : runAt (adopt other) ws = (outcome, ws')) (hours : ws.writer.Follows ws.archive.store l)
    (htheirs : other.Follows ws.archive.store l') (hapart : ws.writer.Apart other)
    (hschema : ws.writer.options.schema = other.options.schema)
    (hformat : ws.writer.options.format = other.options.format) :
    Advances ws ws' ∧
      ∃ n, ws'.writer.Follows ws'.archive.store (l.adopt (l'.flushed.stripes.take n)) ∧
        (outcome = .ok () → n = l'.flushed.stripes.length) := by
  -- it is enough to follow what is written
  have hstep : ∀ {w : Workspace} {n : Nat}, w.writer.Stored w.archive.store
        (l.stripes ++ l'.flushed.stripes.take n) →
      Store.Writes ws.writer.Owns ws.archive.store w.archive.store →
      (∃ offset toastOffset stripes sink, w.writer =
        { ws.writer with offset, toastOffset, stripes, sink }) →
      Advances ws w ∧ w.writer.Follows w.archive.store (l.adopt (l'.flushed.stripes.take n)) := by
    rintro w n hstored hwrites ⟨offset, toastOffset, stripes, sink, hwriter⟩
    rw [hwriter] at hstored ⊢
    refine ⟨⟨?_, ?_, ?_, hwrites⟩, ⟨hours.isOpen, hours.valid, hstored,
      ⟨hours.keeps.cells, hours.keeps.learned⟩, hours.tuples, hours.stripeStatistics,
        hours.fileStatistics⟩⟩
    all_goals rw [hwriter]
  unfold adopt at h
  have h := writer_ok h
  rw [runAt_bind] at h
  generalize hcopy : runAt (copyToast other) ws = result at h
  obtain ⟨copied, w₁⟩ := result
  cases copied with
  | error e =>
      cases h
      obtain rfl := copyToast_failed hcopy
      have hstored : ws'.writer.Stored ws'.archive.store
        (l.stripes ++ l'.flushed.stripes.take 0) := by
        rw [List.take_zero, List.append_nil]
        exact hours.stored
      obtain ⟨hadvances, hfollows⟩ :=
        hstep hstored (Store.Writes.refl _ _) ⟨_, _, _, ws'.writer.sink, rfl⟩
      exact ⟨hadvances, 0, hfollows, by intro hok; cases hok⟩
  | ok u =>
      obtain ⟨hstored₁, hwrites₁, hready, toastOffset, hw₁⟩ :=
        copyToast_stored hcopy hours.stored htheirs.stored hapart hschema hformat
      dsimp only at h
      rw [runAt_bind] at h
      generalize hcopies : runAt (other.stripes.forM (copyStripe other ws.writer.toastOffset)) w₁ =
        result at h
      obtain ⟨copied, w₂⟩ := result
      have howns₁ : w₁.writer.Owns = ws.writer.Owns := by rw [hw₁]; rfl
      have hapart₁ : w₁.writer.Apart other := by
        intro file hown
        rw [howns₁] at hown
        exact hapart file hown
      obtain ⟨⟨n, hle, hstored₂, hall₂⟩, hwrites₂, stripes, offset, sink, hw₂⟩ :=
        copyStripes_stored hcopies hstored₁ hapart₁ hready
      rw [howns₁] at hwrites₂
      have hw₂' : w₂.writer = { ws.writer with offset, toastOffset, stripes, sink } := by
        rw [hw₂, hw₁]
      cases copied with
      | error e =>
          cases h
          have htake : l'.flushed.stripes.take n = l'.stripes.take n := by
            rw [Ledger.stripes_flushed, List.take_append_of_le_length hle]
          rw [← htake] at hstored₂
          obtain ⟨hadvances, hfollows⟩ :=
            hstep hstored₂ (hwrites₁.trans hwrites₂) ⟨_, _, _, _, hw₂'⟩
          exact ⟨hadvances, n, hfollows, by intro hok; cases hok⟩
      | ok u =>
          rw [hall₂ rfl, List.take_length] at hstored₂
          have howns₂ : w₂.writer.Owns = ws.writer.Owns := by rw [hw₂']; rfl
          obtain ⟨⟨m, hstored₃, hall₃⟩, hwrites₃, offset', toastOffset', stripes', sink', hw₃⟩ :=
            takeRows_stored hlibrary h hstored₂ htheirs (by rw [hw₂']; exact hschema)
              (by rw [hw₂']; exact hformat)
          rw [howns₂] at hwrites₃
          rw [List.append_assoc, ← List.take_length_add_append,
            ← Ledger.stripes_flushed] at hstored₃
          obtain ⟨hadvances, hfollows⟩ := hstep hstored₃ ((hwrites₁.trans hwrites₂).trans hwrites₃)
            ⟨offset', toastOffset', stripes', sink', by rw [hw₃, hw₂']⟩
          refine ⟨hadvances, _, hfollows, fun hok => ?_⟩
          rw [hall₃ hok, Ledger.stripes_flushed, List.length_append]

/-! ## (3) Merging -/

omit [Library] in
/-- **What a merge leaves alone**: the options of the writer, which files are its own, and all files
of others; of the paths, only those of the other writer are deleted. -/
structure Merges (other : Writer) (ws ws' : Workspace) : Prop where
  options : ws'.writer.options = ws.writer.options
  file : ws'.writer.file = ws.writer.file
  toastFile : ws'.writer.toastFile = ws.writer.toastFile
  foreign : ws'.archive.store.foreign = ws.archive.store.foreign
  count : ws'.archive.store.contents.length = ws.archive.store.contents.length
  others : ∀ file, ¬ ws.writer.Owns file → ws'.archive.store.get file = ws.archive.store.get file
  paths : ∀ path, ws'.archive.store.find? path =
    if Path.same other.options.fileName path ∨ Path.same other.options.toastFileName path then none
    else ws.archive.store.find? path

omit [Library] in
/-- A merge keeps the files that the writer owns. -/
theorem Merges.owns (h : Merges other ws ws') : ws'.writer.Owns = ws.writer.Owns := by
  funext file
  simp only [Owns, h.file, h.toastFile]

omit [Library] in
/-- **The paths of a writer are spared** by a merge when they are not those of the other one: the
names are not the same, and neither is the other with the ending of a file of values. -/
theorem Merges.spares (h : Merges other ws ws') {w : Writer} (hleads : w.Leads ws.archive.store)
    (hnames : Path.same w.options.fileName other.options.fileName = false)
    (hours : Path.same other.options.toastFileName w.options.fileName = false)
    (htheirs : w.toastFile ≠ none →
      Path.same w.options.toastFileName other.options.fileName = false) :
    w.Leads ws'.archive.store := by
  refine hleads.congr rfl rfl rfl ?_ fun hsome => ?_
  · rw [h.paths, if_neg]
    rintro (hfile | htoast)
    · rw [Path.same_symm hfile] at hnames
      cases hnames
    · rw [htoast] at hours
      cases hours
  · rw [h.paths, if_neg]
    rintro (hfile | htoast)
    · have hdiffer := htheirs hsome
      rw [Path.same_symm hfile] at hdiffer
      cases hdiffer
    · -- names with the same ending are the same only when the files are
      rw [Path.same_symm (Path.same_of_toastFileName htoast)] at hnames
      cases hnames

omit [Library] in
/-- **The paths of the writer still lead to its files** after a merge, unless its file has the name
of the other's file of values or the other way around. -/
theorem Merges.leads (h : Merges other ws ws') (hleads : ws.writer.Leads ws.archive.store)
    (hnames : Path.same ws.writer.options.fileName other.options.fileName = false)
    (hours : Path.same other.options.toastFileName ws.writer.options.fileName = false)
    (htheirs : Path.same ws.writer.options.toastFileName other.options.fileName = false) :
    ws'.writer.Leads ws'.archive.store :=
  (h.spares hleads hnames hours fun _ => htheirs).congr h.options h.file h.toastFile rfl fun _ =>
    rfl

omit [Library] in
/-- **A path has a name of a writer**: that of its file, or that of a file of values, whether the
writer has one or not. -/
def Named (w : Writer) (store : Store) (path : String) : Prop :=
  store.Names w.options.fileName path ∨ store.Names w.options.toastFileName path

omit [Library] in
/-- **The deleted paths** are those with a name of the other writer, and no octets are lost. -/
theorem deleteFiles_named (h : runAt (deleteFiles other) ws = (.ok (), ws')) :
    ∃ store, ws' = { ws with archive.store := store } ∧ store.foreign = ws.archive.store.foreign ∧
      store.contents = ws.archive.store.contents ∧
      (∀ path, other.Named ws.archive.store path → store.find? path = none) ∧
      ∀ path, ¬ other.Named ws.archive.store path →
      store.find? path = ws.archive.store.find? path := by
  obtain ⟨rest, store, hdelete, rfl, hlast⟩ := deleteFiles_ok h
  obtain ⟨hcontents, hforeign⟩ := Store.contents_delete hdelete
  have hnames : ∀ path path', rest.Names path path' ↔ ws.archive.store.Names path path' :=
    fun _ _ => Store.names_congr hforeign
  -- the paths of the file are gone, whatever becomes of those of the file of values
  rcases hlast with ⟨hhas, rfl⟩ | hdelete'
  · refine ⟨store, rfl, hforeign, hcontents, ?_, ?_⟩
    · rintro path (hfile | htoast)
      · exact Store.find?_delete_of_names hdelete hfile
      · -- the path that was not there still is not
        rw [Store.has, Bool.or_eq_false_iff, Option.isSome_eq_false_iff,
          Option.isNone_iff_eq_none] at hhas
        rw [← Store.find?_names ((hnames _ _).mpr htoast)]
        exact hhas.1
    · exact fun path hnot => Store.find?_delete_of_not_names hdelete (not_or.mp hnot).1
  · obtain ⟨hcontents', hforeign'⟩ := Store.contents_delete hdelete'
    refine ⟨store, rfl, hforeign'.trans hforeign, hcontents'.trans hcontents, ?_, ?_⟩
    · rintro path hnamed
      by_cases htoast : ws.archive.store.Names other.options.toastFileName path
      · exact Store.find?_delete_of_names hdelete' ((hnames _ _).mpr htoast)
      · rw [Store.find?_delete_of_not_names hdelete' fun hagain => htoast ((hnames _ _).mp hagain)]
        exact Store.find?_delete_of_names hdelete (hnamed.resolve_right htoast)
    · intro path hnot
      obtain ⟨hfile, htoast⟩ := not_or.mp hnot
      rw [Store.find?_delete_of_not_names hdelete' fun hagain => htoast ((hnames _ _).mp hagain)]
      exact Store.find?_delete_of_not_names hdelete hfile

/-- **Statistics that were taken over** count the rows of the other writer behind those so far. -/
theorem takeStatistics_follows (h : runAt (takeStatistics other) ws = (.ok (), ws'))
    (hours : ws.writer.Follows ws.archive.store l) (htheirs : other.Follows store l')
    (hschema : ws.writer.options.schema = other.options.schema) :
    Advances ws ws' ∧ ws'.writer.Follows ws'.archive.store (l.count l'.counted) := by
  obtain ⟨summaryStatistics, fileStatistics, -, hmerge, rfl⟩ := takeStatistics_ok h
  have hcounted := htheirs.fileStatistics
  rw [← hschema] at hcounted
  refine ⟨⟨rfl, rfl, rfl, Store.Writes.refl _ _⟩, hours.isOpen, hours.valid,
    hours.stored.congr rfl rfl rfl rfl rfl rfl, ⟨hours.keeps.cells, hours.keeps.learned⟩, ?_,
    hours.stripeStatistics, hours.fileStatistics.merge hcounted hmerge⟩
  show ws.writer.tuples + other.tuples = (l.counted ++ l'.counted).length
  rw [hours.tuples, htheirs.tuples, List.length_append]

/-- The other writer follows its ledger while this one is at work. -/
theorem Advances.beside (h : Advances ws ws') (hours : ws.archive.store.foreign = false)
    (hapart : ws.writer.Apart other) (htheirs : other.Follows ws.archive.store l') :
    other.Follows ws'.archive.store l' := by
  refine htheirs.frame (h.writes.foreign.trans hours) (Nat.le_of_eq h.writes.count.symm) ?_
  intro file hown
  exact h.writes.others file fun hmine => hapart file hmine hown

omit [Library] in
/-- Files that are apart stay apart. -/
theorem Advances.apart (h : Advances ws ws') (hapart : ws.writer.Apart other) :
    ws'.writer.Apart other := by
  rw [Apart, h.owns]
  exact hapart

/-- **A merge** adds what the other writer has written and kept behind the rows of this one. -/
theorem merge_follows (hlibrary : BlockLibrary.Restores)
    (h : runAt (merge other) ws = (.ok (), ws')) (hours : ws.writer.Follows ws.archive.store l)
    (htheirs : other.Follows ws.archive.store l') (hapart : ws.writer.Apart other) :
    Merges other ws ws' ∧ ws'.writer.Follows ws'.archive.store (l.merge l') := by
  obtain ⟨hcheck, w₁, w₂, w₃, hflush, hadopt, hstatistics, hdelete⟩ := merge_ok h
  obtain ⟨-, -, -, hschema, hformat⟩ := checkMerge_ok hcheck
  -- a flush, the other's stripes, and its statistics, one after the other
  obtain ⟨hadvances₁, hfollows₁⟩ := flush_follows hlibrary hours hflush
  obtain ⟨hadvances₂, n, hfollows₂, hall⟩ := adopt_follows hlibrary hadopt hfollows₁
    (hadvances₁.beside hours.stored.foreign hapart htheirs) (hadvances₁.apart hapart)
    (by rw [hadvances₁.options]; exact hschema) (by rw [hadvances₁.options]; exact hformat)
  have hadvances := hadvances₁.trans hadvances₂
  rw [hall rfl, List.take_length] at hfollows₂
  obtain ⟨hadvances₃, hfollows₃⟩ := takeStatistics_follows hstatistics hfollows₂ htheirs
    (by rw [hadvances.options]; exact hschema)
  have hadvances := hadvances.trans hadvances₃
  -- last, paths are deleted, which changes no octet of any file
  obtain ⟨store, rfl, hforeign, hcontents, hnamed, hothers⟩ := deleteFiles_named hdelete
  have hown := hfollows₃.stored.foreign
  have hget : ∀ file, store.get file = w₃.archive.store.get file := by
    intro file
    rw [Store.get, Store.get, hcontents]
  refine ⟨⟨hadvances.options, hadvances.file, hadvances.toastFile,
    hforeign.trans hadvances.writes.foreign, ?_, ?_, ?_⟩, hfollows₃.frame (hforeign.trans hown)
      (Nat.le_of_eq (congrArg List.length hcontents.symm))
      fun file _ => hget file⟩
  · show store.contents.length = _
    rw [hcontents, hadvances.writes.count]
  · intro file hfile
    show store.get file = _
    rw [hget, hadvances.writes.others file hfile]
  · intro path
    show store.find? path = _
    have hnames : other.Named w₃.archive.store path ↔
        Path.same other.options.fileName path ∨ Path.same other.options.toastFileName path :=
      or_congr (Store.names_own hown) (Store.names_own hown)
    split
    · rename_i hdeleted
      exact hnamed path (hnames.mpr hdeleted)
    · rename_i hkept
      rw [hothers path (mt hnames.mp hkept), hadvances.writes.find?]

/-- **A merge that failed** was not begun; or its flush failed; or some of the batches of the other
writer came over, and its rows are counted only if all of them did. Paths are deleted by no merge
that fails. -/
theorem merge_failed (hlibrary : BlockLibrary.Restores)
    (h : runAt (merge other) ws = (.error e, ws')) (hours : ws.writer.Follows ws.archive.store l)
    (htheirs : other.Follows ws.archive.store l') (hapart : ws.writer.Apart other) :
    (ws.writer.checkMerge other = .error e ∧ ws' = ws) ∨ ws.writer.checkMerge other = .ok () ∧
      (runAt flush ws = (.error e, ws') ∨
        ∃ w₁ n more, runAt flush ws = (.ok (), w₁) ∧ Advances ws ws' ∧
          ws'.writer.Follows ws'.archive.store
            ((l.flushed.adopt (l'.flushed.stripes.take n)).count more) ∧
          (more = [] ∨ (more = l'.counted ∧ n = l'.flushed.stripes.length))) := by
  rw [merge_eq] at h
  have h := writer_ok h
  -- a merge breaks off where one of its parts does, and the parts before it stay done
  rcases lift_error h with hbarred | ⟨⟨⟩, hcheck, h⟩
  · exact .inl hbarred
  obtain ⟨-, -, -, hschema, hformat⟩ := checkMerge_ok hcheck
  refine .inr ⟨hcheck, ?_⟩
  rcases bind_error h with hflush | ⟨⟨⟩, w₁, hflush, h⟩
  · exact .inl hflush
  obtain ⟨hadvances₁, hfollows₁⟩ := flush_follows hlibrary hours hflush
  have htheirs₁ := hadvances₁.beside hours.stored.foreign hapart htheirs
  have hschema₁ : w₁.writer.options.schema = other.options.schema := by
    rw [hadvances₁.options]
    exact hschema
  have hformat₁ : w₁.writer.options.format = other.options.format := by
    rw [hadvances₁.options]
    exact hformat
  refine .inr ⟨w₁, ?_⟩
  rcases bind_error h with hadopt | ⟨⟨⟩, w₂, hadopt, h⟩
  · obtain ⟨hadvances₂, n, hfollows₂, -⟩ := adopt_follows hlibrary hadopt hfollows₁ htheirs₁
      (hadvances₁.apart hapart) hschema₁ hformat₁
    refine ⟨n, [], hflush, hadvances₁.trans hadvances₂, ?_, .inl rfl⟩
    rw [Ledger.count_nil]
    exact hfollows₂
  obtain ⟨hadvances₂, n, hfollows₂, hall⟩ := adopt_follows hlibrary hadopt hfollows₁ htheirs₁
    (hadvances₁.apart hapart) hschema₁ hformat₁
  have hadvances := hadvances₁.trans hadvances₂
  have hschema₂ : w₂.writer.options.schema = other.options.schema := by
    rw [hadvances.options]
    exact hschema
  rcases bind_error h with hstatistics | ⟨⟨⟩, w₃, hstatistics, h⟩
  · rcases takeStatistics_failed hstatistics with rfl | hcolumns
    · refine ⟨n, [], hflush, hadvances, ?_, .inl rfl⟩
      rw [Ledger.count_nil]
      exact hfollows₂
    · -- the statistics of the files have the columns of one schema
      rw [htheirs.fileStatistics.width, hfollows₂.fileStatistics.width, hschema₂] at hcolumns
      exact absurd rfl hcolumns
  · obtain ⟨hadvances₃, hfollows₃⟩ := takeStatistics_follows hstatistics hfollows₂ htheirs hschema₂
    obtain rfl := deleteFiles_failed hfollows₃.stored.foreign h
    exact ⟨n, l'.counted, hflush, hadvances.trans hadvances₃, hfollows₃, .inr ⟨rfl, hall rfl⟩⟩

/-- **A merge** adds the rows of the other writer behind those of this one, if no call of either
failed. -/
theorem merge_holds (hlibrary : BlockLibrary.Restores) {ours theirs : List Row}
    (hmerge : runAt (merge other) ws = (.ok (), ws'))
    (hours : ws.writer.Holds ws.archive.store ours) (htheirs : other.Holds ws.archive.store theirs)
    (hapart : ws.writer.Apart other) :
    Merges other ws ws' ∧ ws'.writer.Holds ws'.archive.store (ours ++ theirs) := by
  obtain ⟨l, hours, hclean, rfl⟩ := hours
  obtain ⟨l', htheirs, hclean', rfl⟩ := htheirs
  obtain ⟨hmerges, hfollows⟩ := merge_follows hlibrary hmerge hours htheirs hapart
  exact ⟨hmerges, l.merge l', hfollows, hclean.merge hclean', l.rows_merge l'⟩

end ColumnFile.Writer
