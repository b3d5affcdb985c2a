import ColumnFile.Proofs.Writer.Crew

/-! # Stripes are logged and written

A writer that keeps a log has every stripe accepted by its sink before it is written. Beside each
writer goes its journal, which is not part of any program: the records that were accepted from it.
Whatever is asked of a writer, and whether it does it or fails, its journal goes on to have the
octets that it has put into its file. Only a writer that let go of its file and is not closed may
have stripes accepted that it cannot write.

* **`LogRecord.replay`**, **`LogRecord.Abut`** — a log replayed, and records one behind the other.
* **`Writer.Recorded`** — a journal that replays the file of a writer; **`Recorded.put`** and
  **`Recorded.stray`** are the two ways in which records are added.
* **`Writer.Noted`** — what a step leaves alone, and that it keeps journals up.
* **`Writer.putData_cases`** — a stripe is accepted before it is written.
* **`Writer.putStripe_notes`**, **`Writer.copyStripe_notes`** — the two ways in which stripes are
  written.
* **`Writer.Task.noted`**, **`Writer.merge_noted`** — the calls. -/

namespace ColumnFile

/-! ## (1) Records -/

namespace LogRecord

/-- **A log replayed**: its stripes are written in order, each at its place, where nothing was
before. -/
def replay (records : List LogRecord) : Bytes :=
  records.foldl (fun bs r => bs.overwrite r.offset r.stripe) []

/-- **Records abut**: each begins where the one before it ends. -/
def Abut : (start : Nat) → List LogRecord → Prop
  | _, [] => True
  | start, r :: rest => r.offset = start ∧ Abut (start + r.stripe.length) rest

variable {start : Nat} {records : List LogRecord} {r : LogRecord}

/-- **One more record** abuts where the stripes so far end. -/
theorem Abut.add (h : Abut start records)
    (hr : r.offset = start + (records.flatMap LogRecord.stripe).length) :
    Abut start (records ++ [r]) := by
  induction records generalizing start with
  | nil => exact ⟨hr, trivial⟩
  | cons first rest ih =>
      obtain ⟨hfirst, hrest⟩ := h
      refine ⟨hfirst, ih hrest ?_⟩
      rw [hr, List.flatMap_cons, List.length_append, Nat.add_assoc]

/-- **Records that abut** are written one behind the other. -/
theorem Abut.replay (h : Abut 0 records) : replay records = records.flatMap LogRecord.stripe := by
  have hgeneral : ∀ bs : Bytes, Abut bs.length records →
      records.foldl (fun bs r => bs.overwrite r.offset r.stripe) bs =
        bs ++ records.flatMap LogRecord.stripe := by
    clear h
    induction records with
    | nil => exact fun bs _ => (List.append_nil bs).symm
    | cons r rest ih =>
        rintro bs ⟨hr, hrest⟩
        rw [List.foldl_cons, hr, Bytes.overwrite_length,
          ih _ (by rw [List.length_append]; exact hrest), List.flatMap_cons, List.append_assoc]
  exact hgeneral [] h

/-- **Every octet** of records that abut is in one of them, at its place. -/
theorem Abut.octet (h : Abut start records) {p : Nat}
    (hp : p < (records.flatMap LogRecord.stripe).length) :
    ∃ r ∈ records, r.offset ≤ start + p ∧ start + p < r.offset + r.stripe.length ∧
      r.stripe[start + p - r.offset]? = (records.flatMap LogRecord.stripe)[p]? := by
  induction records generalizing start p with
  | nil => exact absurd hp (Nat.not_lt_zero p)
  | cons r rest ih =>
      obtain ⟨hr, hrest⟩ := h
      rw [List.flatMap_cons, List.length_append] at hp
      rw [List.flatMap_cons]
      by_cases hfirst : p < r.stripe.length
      · refine ⟨r, List.mem_cons_self, by omega, by omega, ?_⟩
        rw [List.getElem?_append_left hfirst, hr, Nat.add_sub_cancel_left]
      · obtain ⟨r', hmem, hle, hlt, hoctet⟩ := ih hrest (p := p - r.stripe.length) (by omega)
        have hplace : start + r.stripe.length + (p - r.stripe.length) = start + p := by omega
        rw [hplace] at hle hlt hoctet
        refine ⟨r', List.mem_cons_of_mem _ hmem, hle, hlt, ?_⟩
        rw [List.getElem?_append_right (Nat.not_lt.mp hfirst)]
        exact hoctet

end LogRecord

/-- A **journal**: the file that was made for a writer, and the records that were accepted from
it. -/
structure Journal where
  /-- The file. -/
  file : FileId := 0
  /-- The records, the first one first. -/
  records : List LogRecord := []

/-- A journal with more records. -/
def Journal.extend (journal : Journal) (more : List LogRecord) : Journal :=
  { journal with records := journal.records ++ more }

namespace Writer

open Writing

variable {α : Type} {w w' : Writer} {store store' : Store} {journal : Journal}
  {ws ws' ws'' : Workspace}
  {stripe values : Bytes} {outcome : Except Fault Unit}

/-! ## (2) Journals -/

/-- **Records that are kept** by a file: they abut, and their stripes are the octets up to where the
next stripe begins. -/
structure Kept (w : Writer) (store : Store) (file : FileId) (kept : List LogRecord) : Prop where
  abut : LogRecord.Abut 0 kept
  octets : kept.flatMap LogRecord.stripe = (store.get file).take w.offset
  within : w.offset ≤ (store.get file).length

/-- **A journal that replays** the file of a writer that keeps a log. While the writer has the file,
there is nothing else in it. Records that are not kept by the file stray; there are none unless the
writer let go of the file and is not closed. -/
structure Recorded (w : Writer) (store : Store) (journal : Journal) : Prop where
  log : w.options.log = true
  there : journal.file < store.contents.length
  home : ∀ f, w.file = some f → f = journal.file ∧ (store.get journal.file).length = w.offset
  beside : w.toastFile ≠ some journal.file
  kept : ∃ kept strays, journal.records = kept ++ strays ∧ w.Kept store journal.file kept ∧
    (strays ≠ [] → w.file = none ∧ w.closed = false) ∧ ∀ r ∈ strays, r.offset = w.offset
  names : ∀ r ∈ journal.records, r.fileName = w.options.fileName

/-- **Writers that are alike** in what journals are about; one of them may have let go of its file
of values. -/
structure Alike (w w' : Writer) : Prop where
  options : w'.options = w.options
  file : w'.file = w.file
  toastFile : ∀ t, w'.toastFile = some t → w.toastFile = some t
  offset : w'.offset = w.offset
  closed : w'.closed = w.closed

/-- Writers are alike when they have the same options, files and places. -/
theorem alike_of_eq (hoptions : w'.options = w.options) (hfile : w'.file = w.file)
    (htoastFile : w'.toastFile = w.toastFile) (hoffset : w'.offset = w.offset)
    (hclosed : w'.closed = w.closed) :
    Alike w w' :=
  ⟨hoptions, hfile, fun _ ht => htoastFile.symm.trans ht, hoffset, hclosed⟩

/-- Writers that are alike own the same files. -/
theorem Alike.owns (h : Alike w w') {file : FileId} (howns : w'.Owns file) : w.Owns file :=
  howns.imp h.file.symm.trans (h.toastFile file)

/-- **A journal replays** the file of a writer that is alike, if the file stays. -/
theorem Recorded.congr (h : w.Recorded store journal) (halike : Alike w w')
    (hcount : store.contents.length ≤ store'.contents.length)
    (hget : store'.get journal.file = store.get journal.file) : w'.Recorded store' journal := by
  obtain ⟨kept, strays, hrecords, hkept, hstrays, hplaces⟩ := h.kept
  refine ⟨?_, Nat.lt_of_lt_of_le h.there hcount, ?_, fun ht => h.beside (halike.toastFile _ ht),
    ⟨kept, strays, hrecords, ⟨hkept.abut, ?_, ?_⟩, ?_, ?_⟩, ?_⟩
  · rw [halike.options]
    exact h.log
  · rw [halike.file, halike.offset, hget]
    exact h.home
  · rw [halike.offset, hget]
    exact hkept.octets
  · rw [halike.offset, hget]
    exact hkept.within
  · rw [halike.file, halike.closed]
    exact hstrays
  · rw [halike.offset]
    exact hplaces
  · rw [halike.options]
    exact h.names

/-- **A stripe that was accepted and written** behind those so far is kept. -/
theorem Recorded.put (h : w.Recorded store journal) {file : FileId} (hfile : w.file = some file)
    (hoptions : w'.options = w.options) (hfile' : w'.file = w.file)
    (htoastFile : w'.toastFile = w.toastFile) (hoffset : w'.offset = w.offset + stripe.length)
    (hcount : store'.contents.length = store.contents.length)
    (hget : store'.get file = store.get file ++ stripe) :
    w'.Recorded store'
      (journal.extend [{ fileName := w.options.fileName, offset := w.offset, stripe }]) := by
  obtain ⟨rfl, hlength⟩ := h.home file hfile
  obtain ⟨kept, strays, hrecords, hkept, hstrays, -⟩ := h.kept
  -- the file is there, so nothing strays
  have hnone : strays = [] := by
    by_contra hsome
    rw [(hstrays hsome).1] at hfile
    cases hfile
  rw [hnone, List.append_nil] at hrecords
  have hoctets := hkept.octets
  rw [← hlength, List.take_length] at hoctets
  have hend : (store'.get journal.file).length = w'.offset := by
    rw [hget, List.length_append, hlength, hoffset]
  refine ⟨?_, ?_, ?_, ?_, ⟨journal.records ++ [_], [], (List.append_nil _).symm, ⟨?_, ?_, ?_⟩,
    fun hsome => absurd rfl hsome, fun _ hr => nomatch hr⟩, ?_⟩
  · rw [hoptions]
    exact h.log
  · rw [hcount]
    exact h.there
  · intro f hf
    exact ⟨(h.home f (hfile'.symm.trans hf)).1, hend⟩
  · rw [htoastFile]
    exact h.beside
  · rw [hrecords]
    refine hkept.abut.add ?_
    rw [Nat.zero_add, hoctets, hlength]
  · show _ = (store'.get journal.file).take w'.offset
    rw [← hend, List.take_length, hrecords, List.flatMap_append, hoctets, hget]
    exact congrArg _ (List.append_nil _)
  · exact Nat.le_of_eq hend.symm
  · intro r hr
    rw [hoptions]
    rcases List.mem_append.mp hr with hr | hr
    · exact h.names r hr
    · rw [List.mem_singleton.mp hr]

/-- **A stripe that was accepted and could not be written** strays. -/
theorem Recorded.stray (h : w.Recorded store journal) (hfile : w.file = none)
    (hopen : w.closed = false) (stripe : Bytes) :
    w.Recorded store
      (journal.extend [{ fileName := w.options.fileName, offset := w.offset, stripe }]) := by
  obtain ⟨kept, strays, hrecords, hkept, -, hplaces⟩ := h.kept
  refine ⟨h.log, h.there, h.home, h.beside,
    ⟨kept, strays ++ [⟨w.options.fileName, w.offset, stripe⟩], ?_, hkept,
    fun _ => ⟨hfile, hopen⟩, ?_⟩, ?_⟩
  · rw [← List.append_assoc, ← hrecords]
    rfl
  · intro r hr
    rcases List.mem_append.mp hr with hr | hr
    · exact hplaces r hr
    · rw [List.mem_singleton.mp hr]
  · intro r hr
    rcases List.mem_append.mp hr with hr | hr
    · exact h.names r hr
    · rw [List.mem_singleton.mp hr]

/-- **What a step leaves alone**: the options, and of files all but those of the writer; and it
keeps journals up with the records that it adds to the log. -/
structure Noted (ws ws' : Workspace) : Prop where
  options : ws'.writer.options = ws.writer.options
  foreign : ws'.archive.store.foreign = false
  count : ws'.archive.store.contents.length = ws.archive.store.contents.length
  owns : ∀ file, ws'.writer.Owns file → ws.writer.Owns file
  others : ∀ file, ¬ ws.writer.Owns file → ws'.archive.store.get file = ws.archive.store.get file
  records : ∃ more, ws'.archive.log = ws.archive.log ++ more ∧
    ∀ journal, ws.writer.Recorded ws.archive.store journal →
      ws'.writer.Recorded ws'.archive.store (journal.extend more)

/-- What is noted of a step, and of the next, is noted of both. -/
theorem Noted.trans (h : Noted ws ws') (h' : Noted ws' ws'') : Noted ws ws'' := by
  obtain ⟨more, hlog, hrecorded⟩ := h.records
  obtain ⟨more', hlog', hrecorded'⟩ := h'.records
  refine ⟨h'.options.trans h.options, h'.foreign, h'.count.trans h.count,
    fun file howns => h.owns file (h'.owns file howns), ?_,
    more ++ more', ?_, ?_⟩
  · intro file hfile
    rw [h'.others file fun howns => hfile (h.owns file howns), h.others file hfile]
  · rw [hlog', hlog, List.append_assoc]
  · intro journal hjournal
    have hboth := hrecorded' _ (hrecorded _ hjournal)
    rw [Journal.extend, Journal.extend, List.append_assoc] at hboth
    exact hboth

/-- **A step that writes no stripe** is noted: it may change paths, summaries, and what the writer
keeps. -/
theorem Alike.noted (h : Alike ws.writer ws'.writer) (hforeign : ws.archive.store.foreign = false)
    (hforeign' : ws'.archive.store.foreign = ws.archive.store.foreign)
    (hcontents : ws'.archive.store.contents = ws.archive.store.contents)
    (hlog : ws'.archive.log = ws.archive.log) : Noted ws ws' := by
  have hget : ∀ file, ws'.archive.store.get file = ws.archive.store.get file := by
    intro file
    rw [Store.get, Store.get, hcontents]
  refine ⟨h.options, hforeign'.trans hforeign, congrArg List.length hcontents, fun _ => h.owns,
    fun file _ => hget file, [], ?_, ?_⟩
  · rw [hlog, List.append_nil]
  · intro journal hjournal
    rw [Journal.extend, List.append_nil]
    exact hjournal.congr h (Nat.le_of_eq (congrArg _ hcontents.symm)) (hget _)

/-- **A step of an open writer** is noted, and leaves it open. -/
def Notes (ws ws' : Workspace) : Prop :=
  ws.archive.store.foreign = false → ws.writer.closed = false → Noted ws ws' ∧
    ws'.writer.closed = false

/-- Nothing is noted when nothing changes. -/
instance : Std.Refl Notes :=
  ⟨fun _ hforeign hopen => ⟨(alike_of_eq rfl rfl rfl rfl rfl).noted hforeign rfl rfl rfl, hopen⟩⟩

/-- Steps that are noted follow each other. -/
instance : IsTrans Workspace Notes := by
  refine ⟨fun _ _ _ h h' hforeign hopen => ?_⟩
  obtain ⟨hnoted, hopen'⟩ := h hforeign hopen
  obtain ⟨hnoted', hopen''⟩ := h' hnoted.foreign hopen'
  exact ⟨hnoted.trans hnoted', hopen''⟩

/-- **A change of the writer** that leaves alone what journals are about. -/
theorem notes_setWriter {change : Writer → Writer} (h : ∀ w, Alike w (change w)) :
    Within Notes (setWriter change) := by
  refine within_setWriter fun ws hforeign hopen => ?_
  exact ⟨Alike.noted (h ws.writer) hforeign rfl rfl rfl, (h _).closed.trans hopen⟩

/-! ## (3) Stripes -/

/-- What the log gets when a stripe is accepted, if the writer keeps one. -/
def entry (w : Writer) (stripe : Bytes) : List LogRecord :=
  if w.options.log then [{ fileName := w.options.fileName, offset := w.offset, stripe }] else []

/-- **A stripe was accepted**: the log has it, and all files are as they were. -/
theorem logStripe_accepts (h : runAt (logStripe stripe) ws = (.ok (), ws')) :
    ∃ sink, ws' =
      { writer := { ws.writer with sink }
        archive := { ws.archive with log := ws.archive.log ++ ws.writer.entry stripe } } := by
  unfold logStripe at h
  have h := writer_ok h
  by_cases hlog : ws.writer.options.log = true
  · rw [if_pos hlog] at h
    cases hsink : ws.writer.sink with
    | none =>
        rw [hsink] at h
        exact (throw_ok h).elim
    | some sink =>
        rw [hsink] at h
        have h := setWriter_ok h
        cases hrefusal : sink.refusal sink.calls with
        | some e =>
            rw [hrefusal] at h
            exact (throw_ok h).elim
        | none =>
            rw [hrefusal] at h
            cases h
            refine ⟨some { sink with calls := sink.calls + 1 }, ?_⟩
            rw [entry, if_pos hlog]
  · rw [if_neg hlog] at h
    cases h
    refine ⟨ws.writer.sink, ?_⟩
    rw [entry, if_neg hlog, List.append_nil]

/-- **A stripe is accepted before it is written**: it is refused, and nothing changes but the sink;
or it is accepted, which changes no file, and is written then if the writer has a file. -/
theorem putData_cases (h : runAt (putData stripe) ws = (outcome, ws')) :
    (∃ e sink, outcome = .error e ∧ ws' = { ws with writer := { ws.writer with sink } }) ∨
    ∃ sink accepted, runAt (logStripe stripe) ws = (.ok (), accepted) ∧
      accepted =
        { writer := { ws.writer with sink }
          archive := { ws.archive with log := ws.archive.log ++ ws.writer.entry stripe } } ∧
      ((ws.writer.file = none ∧ outcome = .error .noOpenFile ∧ ws' = accepted) ∨
        ∃ file, ws.writer.file = some file ∧ outcome = .ok () ∧
          ws' = { accepted with
            archive.store := ws.archive.store.write file ws.writer.offset stripe }) := by
  unfold putData at h
  rw [runAt_bind] at h
  generalize hlog : runAt (logStripe stripe) ws = result at h
  obtain ⟨logged, accepted⟩ := result
  -- the sink refuses and nothing is logged, or the stripe is logged first and written then
  cases logged with
  | error e =>
      cases h
      obtain ⟨⟨sink, rfl⟩, -⟩ := logStripe_failed hlog
      exact .inl ⟨e, sink, rfl, rfl⟩
  | ok u =>
      obtain ⟨sink, haccepted⟩ := logStripe_accepts hlog
      refine .inr ⟨sink, accepted, rfl, haccepted, ?_⟩
      have hsame : accepted.writer.file = ws.writer.file := by rw [haccepted]
      have h := writer_ok h
      rcases Option.eq_none_or_eq_some accepted.writer.file with hfile | ⟨file, hfile⟩
      · rw [hfile] at h
        cases h
        exact .inl ⟨hsame.symm.trans hfile, rfl, rfl⟩
      · rw [hfile] at h
        cases h
        refine .inr ⟨file, hsame.symm.trans hfile, rfl, ?_⟩
        rw [haccepted]

/-- **Octets that are not put** are noted. -/
theorem putData_unput {e : Fault} (h : runAt (putData stripe) ws = (.error e, ws'))
    (hforeign : ws.archive.store.foreign = false) (hopen : ws.writer.closed = false) :
    Noted ws ws' ∧ ws'.writer.closed = false := by
  rcases putData_cases h with ⟨-, sink, -, rfl⟩ |
    ⟨sink, accepted, -, rfl, ⟨hfile, -, rfl⟩ | ⟨file, -, hok, -⟩⟩
  · refine ⟨Alike.noted ?_ hforeign rfl rfl rfl, hopen⟩
    exact alike_of_eq rfl rfl rfl rfl rfl
  · refine ⟨⟨rfl, hforeign, rfl, fun _ howns => howns, fun _ _ => rfl, _, rfl, ?_⟩, hopen⟩
    intro journal hjournal
    rw [entry, if_pos hjournal.log]
    exact (hjournal.stray hfile hopen stripe).congr (alike_of_eq rfl rfl rfl rfl rfl)
      (Nat.le_refl _) rfl
  · cases hok

/-- **Octets that are put**, and behind which the writer moves on, are noted. -/
theorem putData_put (h : runAt (putData stripe) ws = (.ok (), ws'))
    (hforeign : ws.archive.store.foreign = false) (hopen : ws.writer.closed = false)
    (hoptions : w'.options = ws'.writer.options) (hfile : w'.file = ws'.writer.file)
    (htoastFile : w'.toastFile = ws'.writer.toastFile)
    (hoffset : w'.offset = ws'.writer.offset + stripe.length)
    (hclosed : w'.closed = ws'.writer.closed) :
    Noted ws { ws' with writer := w' } ∧ w'.closed = false := by
  rcases putData_cases h with ⟨e, -, herror, -⟩ |
    ⟨sink, accepted, -, rfl, ⟨-, herror, -⟩ | ⟨file, hf, -, rfl⟩⟩
  · cases herror
  · cases herror
  have hwrites : Store.Writes ws.writer.Owns ws.archive.store
      (ws.archive.store.write file ws.writer.offset stripe) := Store.writes_write (.inl hf) _ _
  refine ⟨⟨hoptions, hwrites.foreign.trans hforeign, hwrites.count, ?_, hwrites.others, _, rfl, ?_⟩,
    hclosed.trans hopen⟩
  · rintro g (howns | howns)
    · exact .inl (hfile.symm.trans howns)
    · exact .inr (htoastFile.symm.trans howns)
  · intro journal hjournal
    obtain ⟨rfl, hlength⟩ := hjournal.home file hf
    rw [entry, if_pos hjournal.log]
    refine hjournal.put hf hoptions hfile htoastFile hoffset hwrites.count ?_
    rw [Store.get_write_self hforeign hjournal.there, ← hlength, Bytes.overwrite_length]

/-- **Octets in the file of values** are noted: journals are not about them. -/
theorem noted_of_toast {t : FileId} (hforeign : ws.archive.store.foreign = false)
    (ht : ws.writer.toastFile = some t) (position : Nat) (values : Bytes)
    (halike : Alike ws.writer w') :
    Noted ws
      { writer := w',
        archive := { ws.archive with store := ws.archive.store.write t position values } } := by
  have hwrites : Store.Writes ws.writer.Owns ws.archive.store
    (ws.archive.store.write t position values) :=
    Store.writes_write (.inr ht) _ _
  refine ⟨halike.options, hwrites.foreign.trans hforeign, hwrites.count, fun _ => halike.owns,
    hwrites.others, [], (List.append_nil _).symm, ?_⟩
  intro journal hjournal
  rw [Journal.extend, List.append_nil]
  refine hjournal.congr halike (Nat.le_of_eq hwrites.count.symm) (Store.get_write_of_ne ?_ _ _)
  rintro rfl
  exact hjournal.beside ht

/-- **Values out of line** are noted as none of the log. -/
theorem putToast_notes (values : Bytes) : Within Notes (putToast values) := by
  intro ws outcome ws' h hforeign hopen
  cases outcome with
  | error e =>
      obtain ⟨rfl, -⟩ := putToast_failed h
      exact refl_of Notes ws' hforeign hopen
  | ok u =>
      rcases putToast_ok h with ⟨-, rfl⟩ | ⟨t, -, ht, rfl⟩
      · exact refl_of Notes ws' hforeign hopen
      · exact ⟨noted_of_toast hforeign ht _ _ (alike_of_eq rfl rfl rfl rfl rfl), hopen⟩

variable [Library]

/-- **Columns that are put as a stripe**, or refused, are noted. -/
theorem putStripe_notes (columns : ColumnSet) (statistics : List ColumnStatistics) :
    Within Notes (putStripe columns statistics) := by
  intro ws outcome ws' h hforeign hopen
  cases outcome with
  | error e =>
      rcases putStripe_failed h with rfl | ⟨values, stripe, w₁, htoast, hdata⟩
      · exact refl_of Notes ws' hforeign hopen
      · obtain ⟨hnoted, hopen₁⟩ := putToast_notes _ htoast hforeign hopen
        obtain ⟨hnoted', hopen'⟩ := putData_unput hdata hnoted.foreign hopen₁
        exact ⟨hnoted.trans hnoted', hopen'⟩
  | ok encoded =>
      obtain ⟨image, w₁, w₂, -, htoast, hdata, rfl⟩ := putStripe_ok h
      obtain ⟨hnoted, hopen₁⟩ := putToast_notes _ htoast hforeign hopen
      refine And.imp_left hnoted.trans (putData_put hdata hnoted.foreign hopen₁ rfl rfl rfl ?_ rfl)
      rw [List.length_append]
      rfl

/-! ## (4) Rows -/

/-- **A flush** is noted. -/
theorem flush_notes : Within Notes flush := by
  unfold flush
  refine within_writer.bind fun w => (within_lift _).bind fun _ => ?_
  by_cases hrows : 0 < w.columns.rows
  · rw [if_pos hrows]
    refine (within_lift _).bind fun fresh => ?_
    refine Within.bind (notes_setWriter fun _ => alike_of_eq rfl rfl rfl rfl rfl) fun _ => ?_
    refine (putStripe_notes _ _).bind fun columns => (within_lift _).bind fun fresh' => ?_
    exact notes_setWriter fun _ => alike_of_eq rfl rfl rfl rfl rfl
  · rw [if_neg hrows]
    exact within_pure _

/-- **A row that is counted** writes no stripe. -/
theorem count_notes (row : Row) : Within Notes (count row) := by
  have hsummary : Within Notes (countForSummary row) := by
    unfold countForSummary
    refine within_writer.bind fun w => ?_
    cases w.summaryStatistics with
    | none => exact within_pure _
    | some statistics =>
        exact (within_lift _).bind fun statistics' => notes_setWriter fun _ =>
          alike_of_eq rfl rfl rfl rfl rfl
  unfold count
  refine within_writer.bind fun w => (within_lift _).bind fun stripeStatistics => ?_
  refine Within.bind (notes_setWriter fun _ => alike_of_eq rfl rfl rfl rfl rfl) fun _ => ?_
  refine (within_lift _).bind fun fileStatistics => ?_
  refine Within.bind (notes_setWriter fun _ => alike_of_eq rfl rfl rfl rfl rfl) fun _ => ?_
  exact hsummary.bind fun _ => notes_setWriter fun _ => alike_of_eq rfl rfl rfl rfl rfl

/-- **A row that is written** is noted. -/
theorem write_notes (row : Row) : Within Notes (write row) := by
  unfold write
  refine within_writer.bind fun w => (within_lift _).bind fun _ => ?_
  by_cases hwidth : row.length ≠ w.options.schema.length
  · rw [if_pos hwidth]
    exact within_throw _
  rw [if_neg hwidth]
  refine (within_lift _).bind fun values => ?_
  generalize appendValues w.options.toastThreshold w.columns values = result
  obtain ⟨outcome, columns⟩ := result
  refine Within.bind (notes_setWriter fun _ => alike_of_eq rfl rfl rfl rfl rfl) fun _ => ?_
  refine (within_lift _).bind fun _ => (count_notes row).bind fun _ => ?_
  by_cases hfull : w.options.groupLimit ≤ columns.rows
  · rw [if_pos hfull]
    exact flush_notes
  · rw [if_neg hfull]
    exact within_pure _

/-! ## (5) The end of a file -/

omit [Library] in
/-- **The end of a file** is written behind the stripes, and the writer lets go of the file. Nothing
strays then, whether the writer is closed or not. -/
theorem noted_of_tail {file : FileId} (hforeign : ws.archive.store.foreign = false)
    (hfile : ws.writer.file = some file) {last : Bytes}
    (hcontents : ws'.archive.store.contents =
      (ws.archive.store.write file ws.writer.offset last).contents)
    (hforeign' : ws'.archive.store.foreign =
      (ws.archive.store.write file ws.writer.offset last).foreign)
    (hlog : ws'.archive.log = ws.archive.log) (hoptions : ws'.writer.options = ws.writer.options)
    (hgone : ws'.writer.file = none) (htoastFile : ws'.writer.toastFile = none)
    (hoffset : ws'.writer.offset = ws.writer.offset) : Noted ws ws' := by
  -- only the octets behind the last stripe change, which no record is about
  have hwrites : Store.Writes ws.writer.Owns ws.archive.store
      (ws.archive.store.write file ws.writer.offset last) := Store.writes_write (.inl hfile) _ _
  have hget : ∀ g, ws'.archive.store.get g =
    (ws.archive.store.write file ws.writer.offset last).get g := by
    intro g
    rw [Store.get, Store.get, hcontents]
  have hcount : ws'.archive.store.contents.length = ws.archive.store.contents.length := by
    rw [hcontents, hwrites.count]
  refine ⟨hoptions, hforeign'.trans (hwrites.foreign.trans hforeign), hcount, ?_,
    fun g hg => (hget g).trans (hwrites.others g hg), [], ?_, ?_⟩
  -- a closed writer has no files
  · rintro g (howns | howns)
    · rw [hgone] at howns
      cases howns
    · rw [htoastFile] at howns
      cases howns
  · rw [hlog, List.append_nil]
  · intro journal hjournal
    obtain ⟨rfl, hlength⟩ := hjournal.home file hfile
    obtain ⟨kept, strays, hrecords, hkept, hstrays, hplaces⟩ := hjournal.kept
    -- the footer is behind all that was logged
    have hend : ws'.archive.store.get journal.file = ws.archive.store.get journal.file ++ last := by
      rw [hget, Store.get_write_self hforeign hjournal.there, ← hlength, Bytes.overwrite_length]
    rw [Journal.extend, List.append_nil]
    refine ⟨?_, ?_, ?_, ?_, ⟨kept, strays, hrecords, ⟨hkept.abut, ?_, ?_⟩, ?_, ?_⟩, ?_⟩
    · rw [hoptions]
      exact hjournal.log
    · rw [hcount]
      exact hjournal.there
    · intro f hf
      rw [hgone] at hf
      cases hf
    · rw [htoastFile]
      exact Option.some_ne_none _ |>.symm
    · rw [hend, hoffset, hkept.octets, List.take_append_of_le_length hkept.within]
    · rw [hend, hoffset, List.length_append]
      exact Nat.le_add_right_of_le hkept.within
    · intro hsome
      rw [(hstrays hsome).1] at hfile
      cases hfile
    · rw [hoffset]
      exact hplaces
    · rw [hoptions]
      exact hjournal.names

/-- **A close** is noted, whether it fails or not. -/
theorem close_noted (h : runAt close ws = (outcome, ws'))
    (hforeign : ws.archive.store.foreign = false) (hopen : ws.writer.closed = false) :
    Noted ws ws' := by
  rcases close_cases h with ⟨hclosed, -, -⟩ | ⟨e, -, hflush⟩ | ⟨w₁, hflush, hends⟩
  · rw [hopen] at hclosed
    cases hclosed
  · exact (flush_notes hflush hforeign hopen).1
  · have hnoted := (flush_notes hflush hforeign hopen).1
    refine hnoted.trans ?_
    rcases hends with ⟨hfile, rfl⟩ | ⟨file, store, closed, summaries, hfile, rfl, hcontents,
      hforeign'⟩
    · -- a writer without a file stays without one
      exact Alike.noted (alike_of_eq rfl hfile.symm rfl rfl rfl) hnoted.foreign rfl rfl rfl
    · exact noted_of_tail hnoted.foreign hfile hcontents hforeign' rfl rfl rfl rfl rfl

/-! ## (6) Merges -/

variable {other : Writer}

omit [Library] in
/-- **Values that are copied** are noted as none of the log. -/
theorem copyToast_notes (other : Writer) : Within Notes (copyToast other) := by
  intro ws outcome ws' h hforeign hopen
  cases outcome with
  | error e =>
      obtain rfl := copyToast_failed h
      exact refl_of Notes ws' hforeign hopen
  | ok u =>
      rcases copyToast_ok h with ⟨-, rfl⟩ | ⟨theirs, ours, values, -, -, hours, -, rfl⟩
      · exact refl_of Notes ws' hforeign hopen
      · exact ⟨noted_of_toast hforeign hours _ _ (alike_of_eq rfl rfl rfl rfl rfl), hopen⟩

omit [Library] in
/-- **A stripe that is copied**, or refused, is noted. -/
theorem copyStripe_notes (other : Writer) (toastBase : Nat) (info : StripeInformation) :
    Within Notes (copyStripe other toastBase info) := by
  intro ws outcome ws' h hforeign hopen
  cases outcome with
  | error e =>
      unfold copyStripe at h
      cases htheirs : other.file with
      | none =>
          rw [htheirs] at h
          cases h
          exact refl_of Notes ws hforeign hopen
      | some theirs =>
          rw [htheirs] at h
          have h := store_ok h
          rcases lift_error h with ⟨-, rfl⟩ | ⟨stripe, -, h⟩
          · exact refl_of Notes ws' hforeign hopen
          · rcases bind_error h with hput | ⟨⟨⟩, w₁, -, h⟩
            · exact putData_unput hput hforeign hopen
            · cases h
  | ok u =>
      obtain ⟨theirs, stripe, w₁, -, -, hput, rfl⟩ := copyStripe_ok h
      exact putData_put hput hforeign hopen rfl rfl rfl rfl rfl

/-- **What comes over** from another writer is noted. -/
theorem adopt_notes (other : Writer) : Within Notes (adopt other) := by
  unfold adopt
  refine within_writer.bind fun w => (copyToast_notes other).bind fun _ => ?_
  refine (within_forM _ fun info => copyStripe_notes other _ info).bind fun _ => ?_
  unfold takeRows
  by_cases hrows : 0 < other.columns.rows
  · rw [if_pos hrows]
    exact (within_lift _).bind fun fresh => (putStripe_notes _ _).bind fun columns => within_pure _
  · rw [if_neg hrows]
    exact within_pure _

omit [Library] in
/-- **Statistics that are taken over** are noted as none of the log. -/
theorem takeStatistics_notes (other : Writer) : Within Notes (takeStatistics other) := by
  unfold takeStatistics
  refine within_writer.bind fun w => (within_lift _).bind fun summaryStatistics => ?_
  refine Within.bind (notes_setWriter fun _ => alike_of_eq rfl rfl rfl rfl rfl) fun _ => ?_
  exact (within_lift _).bind fun fileStatistics => notes_setWriter fun _ =>
    alike_of_eq rfl rfl rfl rfl rfl

omit [Library] in
/-- **Paths that are deleted** are noted as none of the log. -/
theorem deleteFiles_notes (other : Writer) : Within Notes (deleteFiles other) := by
  intro ws outcome ws' h hforeign hopen
  cases outcome with
  | error e =>
      obtain rfl := deleteFiles_failed hforeign h
      exact refl_of Notes ws' hforeign hopen
  | ok u =>
      obtain ⟨store, rfl, hforeign', hcontents, -⟩ := deleteFiles_named h
      refine ⟨Alike.noted ?_ hforeign hforeign' hcontents rfl, hopen⟩
      exact alike_of_eq rfl rfl rfl rfl rfl

/-- **A merge** is noted, wherever it breaks off. -/
theorem merge_notes (other : Writer) : Within Notes (merge other) := by
  rw [merge_eq]
  exact within_writer.bind fun w => (within_lift _).bind fun _ => flush_notes.bind
    fun _ => (adopt_notes other).bind fun _ => (takeStatistics_notes other).bind
    fun _ => deleteFiles_notes other

/-! ## (7) Calls -/

omit [Library] in
/-- A step that changes nothing is noted. -/
theorem noted_refl (hforeign : ws.archive.store.foreign = false) : Noted ws ws :=
  (alike_of_eq rfl rfl rfl rfl rfl).noted hforeign rfl rfl rfl

/-- **A writer that is closed** refuses a task, or has nothing to do. -/
theorem Task.idle (task : Task) (h : runAt task.step ws = (outcome, ws'))
    (hclosed : ws.writer.closed = true) :
    ws' = ws := by
  cases task with
  | write row =>
      have h := writer_ok h
      rw [checkOpen, if_pos hclosed] at h
      cases h
      rfl
  | flush =>
      have h := writer_ok h
      rw [checkOpen, if_pos hclosed] at h
      cases h
      rfl
  | close =>
      have h := writer_ok h
      rw [hclosed] at h
      cases h
      rfl

/-- **A writer that is closed** refuses to take over another. -/
theorem merge_idle (h : runAt (merge other) ws = (outcome, ws'))
    (hclosed : ws.writer.closed = true) : ws' = ws := by
  have h := writer_ok h
  rw [checkMerge, checkOpen, if_pos hclosed] at h
  cases h
  rfl

/-- **Every task** is noted; a writer that is closed refuses it or has nothing to do. -/
theorem Task.noted (task : Task) (h : runAt task.step ws = (outcome, ws'))
    (hforeign : ws.archive.store.foreign = false) : Noted ws ws' := by
  cases hclosed : ws.writer.closed with
  | true =>
      rw [task.idle h hclosed]
      exact noted_refl hforeign
  | false =>
      cases task with
      | write row => exact (write_notes row h hforeign hclosed).1
      | flush => exact (flush_notes h hforeign hclosed).1
      | close => exact close_noted h hforeign hclosed

/-- **Every merge** is noted; a writer that is closed refuses it. -/
theorem merge_noted (h : runAt (merge other) ws = (outcome, ws'))
    (hforeign : ws.archive.store.foreign = false) :
    Noted ws ws' := by
  cases hclosed : ws.writer.closed with
  | true =>
      rw [merge_idle h hclosed]
      exact noted_refl hforeign
  | false => exact (merge_notes other h hforeign hclosed).1

end Writer

end ColumnFile
