import ColumnFile.Proofs.Writer.Rows
import ColumnFile.Proofs.Writer.Stored

/-! # Writers follow their ledgers

The invariant of an open writer: the batches of its ledger are the stripes in its files, the rows
that are kept are in its columns, and its statistics and its count of rows are those of the rows
that are counted. It is kept by the steps that fail as well as by those that succeed.

* **`Library.verbatim`** — a library that keeps every string as it is.
* **`Writer.Follows`** — the invariant.
* **`Writer.Advances`** — what a step of a writer leaves alone.
* **`Writer.create_follows`**, **`Writer.flush_follows`**, **`Writer.write_follows`** — a new writer
  follows an empty ledger, and every step follows what it comes to.
* **`Writer.Holds`** — a writer of which no call failed: it has the rows that it was given. -/

namespace ColumnFile

/-- The **library that keeps every string** as it is, and whose filters have one word. -/
@[reducible]
def Library.verbatim : Library where
  toBlockLibrary := .verbatim
  toBloomScheme := .narrow

/-- **Valid options** have columns, and all of these have a valid alignment. -/
theorem WriterOptions.validate_ok {options : WriterOptions} (h : options.validate = .ok ()) :
    options.schema ≠ [] ∧ ∀ spec ∈ options.schema, spec.validAlign = true := by
  -- the schema is checked column after column
  have hall : ∀ {schema : List ColumnSpec}, schema.forM ColumnSpec.checkAlign = .ok () →
      ∀ spec ∈ schema, spec.validAlign = true := by
    intro schema hforM
    induction schema with
    | nil =>
        intro spec hspec
        cases hspec
    | cons first schema ih =>
        change (ColumnSpec.checkAlign first >>= fun _ => schema.forM ColumnSpec.checkAlign) =
          .ok () at hforM
        obtain ⟨⟨⟩, hfirst, hrest⟩ := bind_eq_ok hforM
        intro spec hspec
        rcases List.mem_cons.mp hspec with rfl | hspec
        · rw [ColumnSpec.checkAlign] at hfirst
          by_contra hinvalid
          rw [if_neg hinvalid] at hfirst
          cases hfirst
        · exact ih hrest spec hspec
  unfold validate at h
  -- each of the other checks stops what does not pass it
  by_cases hname : options.fileName.isEmpty = true
  · rw [if_pos hname] at h
    cases h
  rw [if_neg hname] at h
  by_cases hschema : options.schema.isEmpty = true
  · rw [if_pos hschema] at h
    cases h
  rw [if_neg hschema] at h
  by_cases hlimit : options.groupLimit = 0
  · rw [if_pos hlimit] at h
    cases h
  rw [if_neg hlimit] at h
  by_cases hchoices : (!options.encodings.isEmpty) = true ∧
    options.encodings.length ≠ options.schema.length
  · rw [if_pos hchoices] at h
    cases h
  rw [if_neg hchoices] at h
  obtain ⟨⟨⟩, haligns, -⟩ := bind_eq_ok h
  refine ⟨?_, hall haligns⟩
  rintro hnil
  rw [hnil] at hschema
  exact hschema rfl

namespace Writer

open Writing

variable [Library] {w w' : Writer} {store store' : Store} {rows buffered : List Row}
  {l : Ledger} {ws ws' : Workspace}

/-! ## (1) The invariant -/

/-- **Rows that are kept**: the columns of a writer hold the cells of rows, and have learned nothing
that a message cannot carry. -/
structure Keeps (w : Writer) (rows : List Row) : Prop where
  cells : ∃ cells, ColumnSet.HoldsFrom w.options.format cells 0 w.columns.columns w.options.schema ∧
    Shows w.options.schema cells rows
  learned : ∀ c ∈ w.columns.columns, c.attributes.Learned

/-- **An open writer follows a ledger**: its stripes hold the batches, its columns the rows that are
kept; the statistics of the next stripe count these, and the rows that were refused; those of the
file count what is counted. -/
structure Follows (w : Writer) (store : Store) (l : Ledger) : Prop where
  isOpen : w.closed = false
  valid : w.options.validate = .ok ()
  stored : w.Stored store l.stripes
  keeps : w.Keeps l.kept
  tuples : w.tuples = l.counted.length
  stripeStatistics : w.stripeStatistics.Describes w.options.schema (l.stale ++ l.kept)
  fileStatistics : w.fileStatistics.Describes w.options.schema l.counted

/-- A writer keeps as many rows as its columns have. -/
theorem Keeps.rows_eq (h : w.Keeps buffered) (hvalid : w.options.validate = .ok ()) :
    w.columns.rows = buffered.length := by
  obtain ⟨cells, hcells, hshows⟩ := h.cells
  exact ColumnSet.rows_eq_length hcells hshows (WriterOptions.validate_ok hvalid).1

/-- **A ledger is followed on** when only files of others change. -/
theorem Follows.frame (h : w.Follows store l) (hforeign : store'.foreign = false)
    (hcount : store.contents.length ≤ store'.contents.length)
    (hget : ∀ file, w.Owns file → store'.get file = store.get file) : w.Follows store' l :=
  { h with stored := h.stored.frame hforeign hcount hget }

/-- The directory of a writer lists as many stripes as its ledger. -/
theorem Follows.listed (h : w.Follows store l) : w.stripes.length = l.stripes.length := by
  obtain ⟨f, -, -, -, -, hplaced⟩ := h.stored.file
  exact hplaced.length_eq

/-- Neither the sink of a writer nor what it counts for its summary matters to its ledger. -/
theorem Follows.equip (h : w.Follows store l) (sink : Option LogSink) (summary : Option Collector) :
    { w with sink, summaryStatistics := summary }.Follows store l :=
  ⟨h.isOpen, h.valid, h.stored.congr rfl rfl rfl rfl rfl rfl, ⟨h.keeps.cells, h.keeps.learned⟩,
    h.tuples, h.stripeStatistics, h.fileStatistics⟩

/-- The files of a writer that follows a ledger are there. -/
theorem Follows.owns_lt (h : w.Follows store l) {file : FileId} (howns : w.Owns file) :
    file < store.contents.length := by
  rcases howns with hfile | htoast
  · obtain ⟨f, hf, hlt, -⟩ := h.stored.file
    cases hfile.symm.trans hf
    exact hlt
  · exact (h.stored.toast file htoast).1

/-- **New columns** keep no rows. -/
theorem keeps_fresh {options : WriterOptions} {attributes : List Attributes}
    (hattributes : ∀ a ∈ attributes, a.Learned) (hoptions : w.options = options)
    (h : freshColumns options attributes = .ok w.columns) : w.Keeps [] := by
  obtain ⟨columns, hcolumns, h⟩ := bind_eq_ok h
  have hset : ({ columns } : ColumnSet) = w.columns := Except.ok.inj h
  refine ⟨⟨fun _ => [], ?_, ?_, ?_⟩, ?_⟩
  · rw [hoptions, ← hset]
    exact ColumnSet.newFrom_spec hcolumns
  · intro row hrow
    cases hrow
  · intro i spec _
    exact .nil
  · rw [← hset]
    exact ColumnSet.newFrom_learned hattributes hcolumns

/-! ## (2) New writers -/

omit [Library] in
/-- **The files of a new writer** are new; whatever was there is left alone, and their paths lead to
them. -/
structure Begins (w : Writer) (options : WriterOptions) (store store' : Store) : Prop extends
    Store.Grows store store' where
  chosen : w.options = options
  new : ∀ file, w.Owns file → store.contents.length ≤ file
  path : store'.find? options.fileName = w.file
  toastPath : w.toastFile ≠ none → store'.find? options.toastFileName = w.toastFile

/-- **A new writer** has written nothing and keeps no rows. -/
theorem create_stored {options : WriterOptions} (hstore : store.foreign = false)
    (h : create options store = (.ok w, store')) :
    w.Stored store' [] ∧ w.Keeps [] ∧ w.Begins options store store' := by
  obtain ⟨file, store₁, toastFile, columns, hvalid, hcreate, htoast, hcolumns, rfl⟩ := create_ok h
  obtain ⟨hnone, rfl, hstore₁⟩ := Store.create_eq_ok hstore hcreate
  have hgrows₁ := Store.create_grows hstore hcreate
  have hcount₁ : store₁.contents.length = store.contents.length + 1 := by
    rw [hstore₁, List.length_append, List.length_singleton]
  have hempty : store.get store.contents.length = [] := by
    rw [Store.get, List.getD_eq_getElem?_getD, List.getElem?_eq_none (Nat.le_refl _),
      Option.getD_none]
  -- the file of out-of-line values, if there is one, is another new file
  have hsecond : Store.Grows store₁ store' ∧ ∀ t, toastFile = some t →
      store.contents.length < t ∧ t < store'.contents.length ∧
        store'.find? options.toastFileName = some t := by
    rcases createToast_ok htoast with ⟨rfl, rfl⟩ | ⟨t, rfl, hcreate'⟩
    · refine ⟨Store.Grows.refl hgrows₁.foreign, ?_⟩
      intro t ht
      cases ht
    · refine ⟨Store.create_grows hgrows₁.foreign hcreate', ?_⟩
      obtain ⟨-, ht, hstore'⟩ := Store.create_eq_ok hgrows₁.foreign hcreate'
      have hcount : store'.contents.length = store₁.contents.length + 1 := by
        rw [hstore', List.length_append, List.length_singleton]
      intro t' ht'
      cases ht'
      refine ⟨?_, ?_, Store.find?_create_self hgrows₁.foreign hcreate'⟩
      · rw [ht, hcount₁]
        exact Nat.lt_succ_self _
      · rw [ht, hcount]
        exact Nat.lt_succ_self _
  obtain ⟨hgrows₂, hout⟩ := hsecond
  have hgrows := hgrows₁.trans hgrows₂
  have hlt : store.contents.length < store'.contents.length := by
    have hcount₂ := hgrows₂.count
    omega
  refine ⟨?_, keeps_fresh (by intro a ha; cases ha) rfl hcolumns, hgrows, rfl, ?_, ?_, ?_⟩
  · refine ⟨hgrows.foreign, ⟨_, rfl, hlt, ?_, ?_, .nil⟩, ?_, fun _ => rfl, ?_⟩
    · rw [hgrows.old, hempty]
      rfl
    · intro ht
      exact Nat.lt_irrefl _ (hout _ ht).1
    · intro t ht
      exact ⟨(hout t ht).2.1, Nat.zero_le _⟩
    · intro info hinfo
      cases hinfo
  · rintro file (hfile | hfile)
    · cases hfile
      exact Nat.le_refl _
    · exact Nat.le_of_lt (hout file hfile).1
  · exact hgrows₂.paths _ _ (Store.find?_create_self hstore hcreate)
  · intro hsome
    obtain ⟨t, ht⟩ := Option.ne_none_iff_exists'.mp hsome
    exact (hout t ht).2.2.trans ht.symm

/-- **A new writer** follows an empty ledger. -/
theorem create_follows {options : WriterOptions} (hstore : store.foreign = false)
    (h : create options store = (.ok w, store')) :
    w.Follows store' {} ∧ w.Begins options store store' := by
  obtain ⟨hstored, hkeeps, hbegins⟩ := create_stored hstore h
  obtain ⟨file, store₁, toastFile, columns, hvalid, -, -, -, rfl⟩ := create_ok h
  exact ⟨⟨rfl, hvalid, hstored, hkeeps, rfl, Collector.new_describes _ _ _,
    Collector.new_describes _ _ _⟩, hbegins⟩

omit [Library] in
/-- **A writer that is not made** may leave new files. -/
theorem create_failed {options : WriterOptions} {e : Fault} (hstore : store.foreign = false)
    (h : create options store = (.error e, store')) : Store.Grows store store' := by
  unfold create at h
  split at h
  · cases h
    exact Store.Grows.refl hstore
  · cases h
    exact Store.Grows.refl hstore
  · rename_i file store₁ _ hcreate
    have hgrows₁ := Store.create_grows hstore hcreate
    split at h
    · cases h
      exact hgrows₁
    · rename_i toastFile store₂ _ htoast _
      cases h
      rcases createToast_ok htoast with ⟨-, rfl⟩ | ⟨t, -, hcreate'⟩
      · exact hgrows₁
      · exact hgrows₁.trans (Store.create_grows hgrows₁.foreign hcreate')
    · cases h

/-! ## (3) Steps -/

omit [Library] in
/-- **What a step leaves alone**: the options of the writer, which files are its own, the paths, and
all files of others. -/
structure Advances (ws ws' : Workspace) : Prop where
  options : ws'.writer.options = ws.writer.options
  file : ws'.writer.file = ws.writer.file
  toastFile : ws'.writer.toastFile = ws.writer.toastFile
  writes : Store.Writes ws.writer.Owns ws.archive.store ws'.archive.store

omit [Library] in
/-- A writer advances when nothing changes. -/
theorem Advances.refl (ws : Workspace) : Advances ws ws := ⟨rfl, rfl, rfl, Store.Writes.refl _ _⟩

omit [Library] in
/-- A writer that gets another sink and another collector has taken no step. -/
theorem Advances.equip (w : Writer) (archive : Archive) (sink : Option LogSink)
    (summary : Option Collector) :
    Advances { writer := w, archive }
      { writer := { w with sink, summaryStatistics := summary }, archive } :=
  ⟨rfl, rfl, rfl, Store.Writes.refl _ _⟩

omit [Library] in
/-- A step keeps the files that the writer owns. -/
theorem Advances.owns (h : Advances ws ws') : ws'.writer.Owns = ws.writer.Owns := by
  funext file
  simp only [Owns, h.file, h.toastFile]

omit [Library] in
/-- **Steps** add up. -/
theorem Advances.trans {ws'' : Workspace} (h : Advances ws ws') (h' : Advances ws' ws'') :
    Advances ws ws'' := by
  constructor
  · rw [h'.options, h.options]
  · rw [h'.file, h.file]
  · rw [h'.toastFile, h.toastFile]
  · refine h.writes.trans (h'.writes.mono ?_)
    rw [h.owns]
    exact fun file howns => howns

omit [Library] in
/-- **New columns** are made for all valid options. -/
theorem freshColumns_total {options : WriterOptions} (h : options.validate = .ok ())
    (attributes : List Attributes) : ∃ columns, freshColumns options attributes = .ok columns := by
  have hnew : ∃ columns, ColumnSet.newFrom options.format options.choice options.offsetsEncoding 0
      options.schema attributes = .ok columns :=
    ColumnSet.newFrom_total _ _ _ _ (WriterOptions.validate_ok h).2
  obtain ⟨columns, hcolumns⟩ := hnew
  refine ⟨{ columns }, ?_⟩
  rw [freshColumns, ColumnSet.new, hcolumns]
  rfl

/-- **A flush that failed** could not put its stripe: before that and after it nothing fails. -/
theorem flush_failed {e : Fault} (hopen : ws.writer.closed = false)
    (hvalid : ws.writer.options.validate = .ok ()) (h : runAt flush ws = (.error e, ws')) :
    ∃ fresh, freshColumns ws.writer.options ws.writer.columns.attributes = .ok fresh ∧
      runAt (putStripe ws.writer.columns ws.writer.stripeStatistics.finish)
        { ws with writer := { ws.writer with columns := fresh } } = (.error e, ws') := by
  unfold flush at h
  have h := writer_ok h
  have hcheck : ws.writer.checkOpen = .ok () := by rw [checkOpen, hopen]; rfl
  rw [hcheck] at h
  rcases lift_error h with ⟨hclosed, -⟩ | ⟨⟨⟩, -, h⟩
  · cases hclosed
  by_cases hrows : 0 < ws.writer.columns.rows
  · rw [if_pos hrows] at h
    obtain ⟨fresh, hfresh⟩ := freshColumns_total hvalid ws.writer.columns.attributes
    rw [hfresh] at h ⊢
    rcases lift_error h with ⟨hnone, -⟩ | ⟨fresh', hsame, h⟩
    · cases hnone
    cases hsame
    have h := setWriter_ok h
    rcases bind_error h with hput | ⟨columns, w₁, hput, h⟩
    · exact ⟨fresh, rfl, hput⟩
    · obtain ⟨fresh', hfresh'⟩ := freshColumns_total hvalid columns.attributes
      rw [hfresh'] at h
      rcases lift_error h with ⟨hnone, -⟩ | ⟨fresh'', -, h⟩
      · cases hnone
      · cases h
  · rw [if_neg hrows] at h
    cases h

/-- **A flush** makes a batch of the rows that are kept, or they are refused. -/
theorem flush_follows (hlibrary : BlockLibrary.Restores) {outcome : Except Fault Unit}
    (h : ws.writer.Follows ws.archive.store l) (hflush : runAt flush ws = (outcome, ws')) :
    Advances ws ws' ∧ ws'.writer.Follows ws'.archive.store (l.flush outcome) := by
  have hcolumns := h.keeps.rows_eq h.valid
  cases outcome with
  | ok u =>
      obtain ⟨-, ⟨hnone, rfl⟩ | ⟨fresh, columns, w₁, fresh', hsome, hput, hfresh, rfl⟩⟩ :=
        flush_ok hflush
      · -- there was nothing to write
        have hkept : l.kept = [] := List.length_eq_zero_iff.mp (hcolumns.symm.trans hnone)
        rw [Ledger.flush, Ledger.flushed, if_pos hkept]
        exact ⟨Advances.refl _, h⟩
      · have hkept : l.kept ≠ [] := by
          intro hkept
          rw [hcolumns, hkept] at hsome
          exact Nat.lt_irrefl 0 hsome
        obtain ⟨cells, hcells, hshows⟩ := h.keeps.cells
        have hstored : { ws.writer with columns := fresh }.Stored ws.archive.store l.stripes :=
          h.stored.congr rfl rfl rfl rfl rfl rfl
        obtain ⟨⟨image, hserialize⟩, hput', hwrites, offset, toastOffset, stripes, sink, hwriter⟩ :=
          putStripe_stored (b := { rows := l.kept, besides := l.stale }) hlibrary hput hstored
            hcells hshows
            (WriterOptions.validate_ok h.valid).1 h.stripeStatistics.finish
        -- what was learned is kept
        have hlearned := ColumnSet.serializeFrom_learned h.keeps.learned
          (ColumnSet.serialize_eq_ok hserialize).2
        have hattributes : ∀ a ∈ columns.attributes, a.Learned := by
          intro a ha
          obtain ⟨c, hc, rfl⟩ := List.mem_map.mp ha
          exact hlearned c hc
        rw [Ledger.flush, Ledger.flushed, if_neg hkept, Ledger.pending_of_ne hkept]
        rw [hwriter] at hput' ⊢
        exact ⟨⟨rfl, rfl, rfl, hwrites⟩, ⟨h.isOpen, h.valid, hput'.congr rfl rfl rfl rfl rfl rfl,
          keeps_fresh hattributes rfl hfresh, h.tuples, h.stripeStatistics.reset, h.fileStatistics⟩⟩
  | error e =>
      obtain ⟨fresh, hfresh, hput⟩ := flush_failed h.isOpen h.valid hflush
      have hlearned : ∀ a ∈ ws.writer.columns.attributes, a.Learned := by
        intro a ha
        obtain ⟨c, hc, rfl⟩ := List.mem_map.mp ha
        exact h.keeps.learned c hc
      have hkeeps : { ws.writer with columns := fresh }.Keeps [] := keeps_fresh hlearned rfl hfresh
      have hstored : { ws.writer with columns := fresh }.Stored ws.archive.store l.stripes :=
        h.stored.congr rfl rfl rfl rfl rfl rfl
      obtain ⟨hput', hwrites, sink, hwriter⟩ := putStripe_refused hput hstored
      have hstatistics : ws.writer.stripeStatistics.Describes ws.writer.options.schema
          (l.stale ++ l.kept ++ []) := by
        rw [List.append_nil]
        exact h.stripeStatistics
      rw [hwriter] at hput' ⊢
      refine ⟨⟨?_, ?_, ?_, hwrites⟩,
        ⟨h.isOpen, h.valid, hput', ⟨hkeeps.cells, hkeeps.learned⟩, h.tuples,
        hstatistics, h.fileStatistics⟩⟩
      all_goals rw [hwriter]

/-- **A row that is appended** to the columns is kept behind the rows so far. -/
theorem Keeps.append {row : Row} {values : List (Option Bytes)} {columns : ColumnSet}
    (h : w.Keeps buffered) (hwidth : row.length = w.options.schema.length)
    (hvalues : storedRow w.options.schema row = .ok values)
    (happend : appendValues w.options.toastThreshold w.columns values = (.ok (), columns)) :
    { w with columns }.Keeps (buffered ++ [row]) := by
  obtain ⟨cells, hcells, hshows⟩ := h.cells
  obtain ⟨cells', hcells', hshows'⟩ := appendValues_shows hcells hshows hwidth hvalues happend
  exact ⟨⟨cells', hcells', hshows'⟩, appendValues_learned happend h.learned⟩

/-- **A row that is taken** is kept and counted; once there are rows enough, they are flushed. -/
theorem write_follows (hlibrary : BlockLibrary.Restores) {row : Row} {outcome : Except Fault Unit}
    (h : ws.writer.Follows ws.archive.store l) (hwrite : Takes row outcome ws ws') :
    Advances ws ws' ∧
      ws'.writer.Follows ws'.archive.store (l.write ws.writer.options.groupLimit row outcome) := by
  obtain ⟨hwidth, values, columns, w₁, hvalues, happend, hcounted, hlast⟩ := hwrite
  have hsuits := suits_of_storedRow hvalues hwidth
  have hkeeps := h.keeps.append hwidth hvalues happend
  have hrows : columns.rows = (l.take row).kept.length := hkeeps.rows_eq h.valid
  obtain ⟨stripeStatistics, fileStatistics, summaryStatistics, hstripe, hfile, -, rfl⟩ :=
    count_ok hcounted
  -- the row is kept and counted; the files are as they were
  generalize hws₁ : ({ ws with
    writer :=
      { ws.writer with
        columns, stripeStatistics, fileStatistics, summaryStatistics,
        tuples := ws.writer.tuples + 1 } } : Workspace) = ws₁ at hlast
  have hadvances : Advances ws ws₁ := by
    rw [← hws₁]
    exact ⟨rfl, rfl, rfl, Store.Writes.refl _ _⟩
  have htaken : ws₁.writer.Follows ws₁.archive.store (l.take row) := by
    rw [← hws₁]
    refine ⟨h.isOpen, h.valid, h.stored.congr rfl rfl rfl rfl rfl rfl,
      ⟨hkeeps.cells, hkeeps.learned⟩, ?_, ?_, h.fileStatistics.addRow hsuits hfile⟩
    · show ws.writer.tuples + 1 = (l.counted ++ [row]).length
      rw [h.tuples, List.length_append, List.length_singleton]
    · show stripeStatistics.Describes ws.writer.options.schema (l.stale ++ (l.kept ++ [row]))
      rw [← List.append_assoc]
      exact h.stripeStatistics.addRow hsuits hstripe
  unfold Ledger.write
  rw [hrows] at hlast
  rcases hlast with ⟨hroom, -, rfl⟩ | ⟨hfull, hflush⟩
  · rw [if_neg (Nat.not_le.mpr hroom)]
    exact ⟨hadvances, htaken⟩
  · obtain ⟨hadvances', hflushed⟩ := flush_follows hlibrary htaken hflush
    rw [if_pos hfull]
    exact ⟨hadvances.trans hadvances', hflushed⟩

/-! ## (4) Writers of which no call failed -/

/-- **An open writer holds rows**: it follows a clean ledger that has them. -/
def Holds (w : Writer) (store : Store) (rows : List Row) : Prop :=
  ∃ l, w.Follows store l ∧ l.Clean ∧ l.rows = rows

/-- The sink of a writer does not matter to the rows that it holds. -/
theorem Holds.withSink (h : w.Holds store rows) (sink : Option LogSink) :
    { w with sink }.Holds store rows := by
  obtain ⟨l, hfollows, hrows⟩ := h
  exact ⟨l, hfollows.equip sink w.summaryStatistics, hrows⟩

/-- **A new writer** holds no rows. -/
theorem create_holds {options : WriterOptions} (hstore : store.foreign = false)
    (h : create options store = (.ok w, store')) :
    w.Holds store' [] ∧ w.Begins options store store' := by
  obtain ⟨hfollows, hbegins⟩ := create_follows hstore h
  exact ⟨⟨{}, hfollows, Ledger.clean_nil, rfl⟩, hbegins⟩

/-- **A flush** keeps the rows: afterwards all of them are those of stripes. -/
theorem flush_holds (hlibrary : BlockLibrary.Restores) (h : ws.writer.Holds ws.archive.store rows)
    (hflush : runAt flush ws = (.ok (), ws')) :
    Advances ws ws' ∧ ws'.writer.Holds ws'.archive.store rows := by
  obtain ⟨l, hfollows, hclean, rfl⟩ := h
  obtain ⟨hadvances, hflushed⟩ := flush_follows hlibrary hfollows hflush
  exact ⟨hadvances, l.flushed, hflushed, hclean.flushed, l.rows_flushed⟩

/-- **A row that is written** is held behind the rows so far. -/
theorem write_holds (hlibrary : BlockLibrary.Restores) {row : Row}
    (h : ws.writer.Holds ws.archive.store rows) (hwrite : runAt (write row) ws = (.ok (), ws')) :
    Advances ws ws' ∧ ws'.writer.Holds ws'.archive.store (rows ++ [row]) := by
  obtain ⟨l, hfollows, hclean, rfl⟩ := h
  obtain ⟨hadvances, hwritten⟩ := write_follows hlibrary hfollows (write_ok hwrite).2
  exact ⟨hadvances, _, hwritten, hclean.write _ row, l.rows_write _ row⟩

end Writer

end ColumnFile
