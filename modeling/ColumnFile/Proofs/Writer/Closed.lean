import ColumnFile.Proofs.Writer.Accounts
import ColumnFile.Proofs.Writer.Faults

/-! # Files that were closed stay as their summary says

The summary that is given when a file is closed tells how long the file is, how many rows it has,
and whether values out of line are beside it. It is true of the files as they are then; and since a
closed writer does nothing any more, it stays true of all that this writer could still be asked for.

* **`Writer.Note.deliveries`** — who took which row, as the note of a writer;
  **`Writer.Run.accounts`** — what is out of line is accounted for.
* **`WriteSummary.Tells`** — a summary that is true of the files of a writer;
  **`Writer.close_tells`**.
* **`Writer.Request`**, **`Writer.answers`** — what may be asked of a writer, whatever comes of it;
  **`Writer.answers_closed`** — the answers of a writer that was closed.
* **`Writer.close_truthful`** — the summary is true, the file is read back, and nothing changes any
  more. -/

namespace ColumnFile

/-- **A summary tells** what is in the files of a writer that was closed: how long its file is, how
many rows were delivered, and whether some of them have values out of line. If so, they are in the
file beside it, those of one stripe behind those of another; if not, a file that was made for them
is gone. -/
structure WriteSummary.Tells (summary : WriteSummary) (options : WriterOptions) (withToast : Bool)
    (store : Store) (stripes : List StripeInformation) (deliveries : List Delivery) : Prop where
  fileName : summary.fileName = options.fileName
  fileSize : ∃ file, store.open? options.fileName = .ok file ∧ store.length file = summary.fileSize
  tuples : summary.tuples = deliveries.length
  hasToast : summary.hasToast = true ↔ ∃ d ∈ deliveries, d.outside ≠ []
  toast : summary.hasToast = true → ∃ file, store.open? options.toastFileName = .ok file ∧
    store.length file = (stripes.map StripeInformation.toastLength).sum
  noToast : summary.hasToast = false → withToast = true → store.has options.toastFileName = false

namespace Writer

open Writing

variable [Library] {names : String → Prop} {rules : Rules} {archive archive' : Archive}
  {register : Register (List Delivery)} {i : Nat} {w : Writer} {l : Ledger} {ds : List Delivery}
  {ws ws' : Workspace}

/-! ## (1) Deliveries -/

omit [Library] in
/-- **The deliveries to a writer** as its note: the rows that it has, and with which options each of
them was taken. Merges do not break off where they are noted. -/
def Note.deliveries : Note (List Delivery) where
  fresh := []
  equip _ _ ds ds' := ds' = ds
  after options event _ ds := ds ++ event.rows.map fun row => { options, row }
  merge ours theirs := ours ++ theirs
  broken _ _ _ _ _ := False

omit [Library] in
/-- **The deliveries of calls** are behind those that were noted. -/
@[simp] theorem perform_deliveries (options : WriterOptions) (calls : List Call)
    (ds : List Delivery) :
    Note.deliveries.perform options calls ds = ds ++ delivered options calls := by
  induction calls generalizing ds with
  | nil => exact (List.append_nil _).symm
  | cons call calls ih =>
      rw [Note.perform_cons, ih, delivered_cons, ← List.append_assoc]
      cases call with
      | write row => rfl
      | flush => rfl

omit [Library] in
/-- **The rows of the deliveries** are those of the ledger, where nothing fails. -/
theorem deliveries_track :
    Note.deliveries.Tracks .ledger (.strict names) fun ds l => ds.map Delivery.row = l.rows where
  fresh := rfl
  equip hnoted hrows := ⟨_, rfl, hnoted ▸ hrows⟩
  after hallowed hrows := by
    obtain rfl := hallowed.resolve_right fun hrefused => hrefused
    rw [Ledger.rows_after, ← hrows, Note.deliveries, List.map_append, List.map_map]
    exact congrArg _ (List.map_id _)
  merge hours htheirs := by
    rw [Ledger.rows_merge, ← hours, ← htheirs, ← List.map_append]
    rfl
  broken hbroken := hbroken.elim

/-- **What the others have out of line** is accounted for while only the files of one writer
change. -/
theorem Run.accountsOthers (hlibrary : BlockLibrary.Restores)
    (h : Run Note.deliveries rules archive register)
    (haccounts : ∀ j b ds, register j = some (b, ds) → b.Accounts archive.store ds)
    (hmember : register i = some (w, ds)) (hforeign : archive'.store.foreign = false)
    (hcount : archive.store.contents.length ≤ archive'.store.contents.length)
    (hget : ∀ file, ¬ w.Owns file → archive'.store.get file = archive.store.get file) :
    ∀ j b ds', j ≠ i → register j = some (b, ds') → b.Accounts archive'.store ds' := by
  intro j b ds' hj hb
  refine (haccounts j b ds' hb).frame hforeign hcount ?_
  intro file howns
  exact hget file (h.apart hlibrary hb hmember hj file howns)

/-- **What every writer has out of line** is accounted for, where nothing fails. -/
theorem Run.accounts (hlibrary : BlockLibrary.Restores)
    (h : Run Note.deliveries (.strict names) archive register) :
    ∀ i w ds, register i = some (w, ds) → w.Accounts archive.store ds := by
  -- each step concerns one writer; the others' files, and what is noted of them, are as before
  induction h with
  | start _ =>
      intro i w ds hmember
      cases hmember
  | @create archive register options w store i before _ step ih =>
      obtain ⟨roster, hsession, -⟩ := before.ledgers
      have hown := (hsession.held hlibrary).own
      obtain ⟨-, -, hbegins⟩ := create_stored hown step
      intro j b ds hmember
      rcases listed_of_join hmember with ⟨rfl, heq⟩ | ⟨hj, hmember⟩
      · cases heq
        exact create_accounts hown step
      · exact (ih j b ds hmember).frame hbegins.foreign hbegins.count fun file _ => hbegins.old file
  | unmade _ hrefused => exact hrefused.elim
  | @equip archive register i w ds _ sink summary _ member noted ih =>
      obtain rfl := noted
      intro j b ds' hmember
      rcases listed_of_join hmember with ⟨rfl, heq⟩ | ⟨hj, hmember⟩
      · cases heq
        exact (ih j w _ member).equip sink summary
      · exact ih j b ds' hmember
  | @event archive register i w ds event outcome ws before member allowed step ih =>
      obtain rfl := allowed.resolve_right fun hrefused => hrefused
      obtain ⟨roster, hsession, hsame⟩ := before.ledgers
      have hheld := hsession.held hlibrary
      obtain ⟨l, hlisted, -⟩ := hsame i w ds member
      have hfollows := hheld.follows i w l hlisted
      obtain ⟨hadvances, -⟩ := step.follows hlibrary hfollows
      have hothers := before.accountsOthers hlibrary ih member
        (hadvances.writes.foreign.trans hheld.own)
        (Nat.le_of_eq hadvances.writes.count.symm) hadvances.writes.others
      intro j b ds' hmember
      rcases listed_of_join hmember with ⟨rfl, heq⟩ | ⟨hj, hmember⟩
      · cases heq
        obtain ⟨call, rfl, hcall⟩ := step.call
        have haccounts := Call.accounts hcall hfollows (ih j w ds member)
        rw [delivered, ← Call.rows_event] at haccounts
        exact haccounts
      · exact hothers j b ds' hj hmember
  | @merge archive register i j a b ours theirs ws before first second step ih =>
      obtain ⟨roster, hsession, hsame⟩ := before.ledgers
      have hheld := hsession.held hlibrary
      have hapart := before.apart hlibrary first second (merge_ne first second step)
      obtain ⟨l, hfirst, -⟩ := hsame i a ours first
      obtain ⟨l', hsecond, -⟩ := hsame j b theirs second
      have hours := hheld.follows i a l hfirst
      have htheirs := hheld.follows j b l' hsecond
      obtain ⟨hmerges, -⟩ := merge_follows hlibrary step hours htheirs hapart
      have hothers := before.accountsOthers hlibrary ih first (hmerges.foreign.trans hheld.own)
        (Nat.le_of_eq hmerges.count.symm) hmerges.others
      intro k c ds hmember
      rcases listed_of_join hmember with ⟨rfl, heq⟩ | ⟨hk, hmember⟩
      · cases heq
        exact merge_accounts step hours htheirs (ih k a ours first) (ih j b theirs second)
      · exact hothers k c ds hk (listed_of_drop hmember).2
  | broken _ hbreaks => exact hbreaks.elim
  | @close archive register i w ds ws before member step ih =>
      obtain ⟨roster, hsession, hsame⟩ := before.ledgers
      obtain ⟨l, hlisted, -⟩ := hsame i w ds member
      obtain ⟨hforeign, hcount, hget, -⟩ :=
        close_leaves hlibrary ((hsession.held hlibrary).follows i w l hlisted) step
      have hothers := before.accountsOthers hlibrary ih member hforeign
        (Nat.le_of_eq hcount.symm) hget
      intro j b ds' hmember
      obtain ⟨hj, hmember⟩ := listed_of_drop hmember
      exact hothers j b ds' hj hmember
  | drop i _ ih =>
      intro j b ds hmember
      exact ih j b ds (listed_of_drop hmember).2

/-! ## (2) Summaries -/

/-- **The summary of a file that is closed** is true of its files. -/
theorem close_tells (hlibrary : BlockLibrary.Restores) (h : runAt close ws = (.ok (), ws'))
    (hfollows : ws.writer.Follows ws.archive.store l) (hclean : l.Clean)
    (hleads : ws.writer.Leads ws.archive.store)
    (haccounts : ws.writer.Accounts ws.archive.store ds) (hrows : ds.map Delivery.row = l.rows) :
    ∃ summary, ws'.archive.summaries = ws.archive.summaries ++ [summary] ∧
      summary.Tells ws.writer.options ws.writer.toastFile.isSome ws'.archive.store
        ws'.writer.stripes ds := by
  obtain ⟨w₁, file, store, hflush, hfile, rfl, hstore⟩ := close_ok hfollows.isOpen h
  obtain ⟨hadvances, hfollows₁⟩ := flush_follows hlibrary hfollows hflush
  obtain ⟨haccounts, hnil⟩ := flush_accounts hflush hfollows.keeps hfollows.valid haccounts
  obtain ⟨hforeign, hcontent, htoast, hpath, htoastPath⟩ :=
    closed_files hfollows₁.stored (hadvances.leads hleads) hfile hstore
  obtain ⟨f, hf, -, hlength, -, -⟩ := hfollows₁.stored.file
  cases hfile.symm.trans hf
  rw [hadvances.options] at hpath htoastPath hstore
  -- the file of values has what the rows have out of line
  have hoctets : w₁.writer.toastOffset = Delivery.octets ds := by
    have hoctets := haccounts.octets
    rw [hnil, List.length_nil, Nat.add_zero] at hoctets
    exact hoctets
  refine ⟨w₁.writer.summary (tail w₁.writer.footer), ?_, ?_⟩
  · obtain ⟨columns, stripeStatistics, -, -, hlays⟩ := flush_lays hflush
    show w₁.archive.summaries ++ _ = _
    rw [hlays.summaries]
  refine ⟨congrArg WriterOptions.fileName hadvances.options, ⟨file, ?_, ?_⟩, ?_, ?_, ?_, ?_⟩
  · rw [Store.open?, hpath]
  · rw [Store.length, hcontent, List.length_append, hlength]
    rfl
  · show w₁.writer.tuples = _
    rw [hfollows₁.tuples, l.counted_flush, hclean.counted, ← hrows, List.length_map]
  · rw [← Delivery.octets_pos, ← hoctets]
    exact decide_eq_true_iff
  · intro hpositive
    have hpositive : 0 < w₁.writer.toastOffset := of_decide_eq_true hpositive
    obtain ⟨t, ht⟩ : ∃ t, w₁.writer.toastFile = some t := by
      refine Option.ne_none_iff_exists'.mp fun hnone => ?_
      rw [hfollows₁.stored.noToast hnone] at hpositive
      exact Nat.lt_irrefl 0 hpositive
    refine ⟨t, ?_, ?_⟩
    · rw [Store.open?, htoastPath hpositive, ht]
    · rw [Store.length, htoast t ht, (haccounts.toast t ht).2, ← haccounts.listed]
      rfl
  · -- an empty file of values is deleted under the name that it was created with
    intro hzero hsome
    have hzero : w₁.writer.toastOffset = 0 := by
      have hnot : ¬ 0 < w₁.writer.toastOffset := of_decide_eq_false hzero
      omega
    rw [← hadvances.toastFile] at hsome
    rcases hstore with ⟨-, -, hdelete⟩ | ⟨hnot, -⟩
    · have hgone : store.find? ws.writer.options.toastFileName = none := by
        refine Store.find?_delete_of_names hdelete ?_
        exact (Store.names_own ((Store.contents_delete hdelete).2.symm.trans hforeign)).mpr
          (Path.same_iff.mpr rfl)
      show store.has ws.writer.options.toastFileName = false
      rw [Store.has, hgone, hforeign]
      rfl
    · exact absurd ⟨hsome, hzero⟩ hnot

/-- **The file of a writer that was closed** is read back: it lists the stripes of the writer, and
has its rows. -/
theorem close_read (hlibrary : BlockLibrary.Restores) (h : runAt close ws = (.ok (), ws'))
    (hfollows : ws.writer.Follows ws.archive.store l) (hclean : l.Clean)
    (hleads : ws.writer.Leads ws.archive.store) (hfits : ws'.writer.Fits) (reading : ReaderOptions)
    (hfilter : reading.filter = none) (hdeleted : reading.deleted = none)
    (hschema : ∀ schema, reading.schema = some schema → schema = ws.writer.options.schema) :
    ∃ r, Reader.ofFile ws'.archive.store ws.writer.options.fileName reading = .ok r ∧
      r.footer.stripes = ws'.writer.stripes ∧
      ∀ k, ((r.after ws'.archive.store (List.replicate k .next)).next ws'.archive.store).1 =
        .ok l.rows[k]? := by
  have hrows := close_rows_lt hlibrary hfollows hclean.backed h hfits
  obtain ⟨file, content, -, hopen, -, -, hread, -⟩ :=
    close_ends hlibrary hfollows hleads h hfits hrows
  obtain ⟨footer, hfiled, hcolumns⟩ := close_filed hlibrary hfollows hleads h hfits hrows
  -- the footer that is read is that of the writer
  obtain ⟨file', hopen', hread', -⟩ := hfiled.stripes
  cases hopen.symm.trans hopen'
  cases hread.symm.trans hread'
  rw [← hcolumns] at hschema
  obtain ⟨r, hreader, hfooter, -, hahead⟩ :=
    hfiled.opens (by rw [l.counted_flushed, l.written_flushed, hclean.counted])
      (checkSchema_ok hschema)
  have hahead := hahead hfilter hdeleted
  rw [l.written_flushed] at hahead
  refine ⟨r, hreader, by rw [hfooter]; rfl, ?_⟩
  intro k
  rw [Reader.next_after hahead, List.count_replicate_self]

/-! ## (3) Writers that were closed -/

/-- What may be **asked of a writer**. -/
inductive Request
  /-- One more row. -/
  | write (row : Row)
  /-- The rows so far as a stripe. -/
  | flush
  /-- The rows of another writer. -/
  | merge (other : Writer)
  /-- The end of the file. -/
  | close

/-- The step that a request asks for. -/
def Request.step : Request → Writing Unit
  | .write row => Writer.write row
  | .flush => Writer.flush
  | .merge other => Writer.merge other
  | .close => Writer.close

/-- What comes of a request to the writer of a file that was closed. -/
def Request.late (fileName : String) : Request → Except Fault Unit
  | .close => .ok ()
  | _ => .error (.writerClosed fileName)

/-- Does what is requested, one after the other and whatever comes of it; what comes of each, and
what is left. -/
def answers : List Request → Workspace → List (Except Fault Unit) × Workspace
  | [], ws => ([], ws)
  | request :: requests, ws =>
    let (outcome, ws) := runAt request.step ws
    let (outcomes, ws) := answers requests ws
    (outcome :: outcomes, ws)

/-- **A writer that was closed** refuses everything but to be closed again, and nothing changes. -/
theorem Request.step_closed (hclosed : ws.writer.closed = true) (request : Request) :
    runAt request.step ws = (request.late ws.writer.options.fileName, ws) := by
  have hcheck := checkOpen_closed hclosed
  cases request with
  | write row =>
      rw [step, Writer.write, runAt_writer]
      exact runAt_refused hcheck _ _
  | flush =>
      rw [step, Writer.flush, runAt_writer]
      exact runAt_refused hcheck _ _
  | merge other =>
      have hbarred : ws.writer.checkMerge other =
        .error (.writerClosed ws.writer.options.fileName) := by
        rw [checkMerge, hcheck, error_bind]
      rw [step, merge_eq, runAt_writer]
      exact runAt_refused hbarred _ _
  | close =>
      rw [step, Writer.close, runAt_writer, hclosed, Bool.not_true, if_neg Bool.false_ne_true]
      rfl

/-- **Whatever is asked** of a writer that was closed, in whatever order. -/
theorem answers_closed (hclosed : ws.writer.closed = true) (requests : List Request) :
    answers requests ws = (requests.map (Request.late ws.writer.options.fileName), ws) := by
  induction requests with
  | nil => rfl
  | cons request requests ih =>
      rw [answers, Request.step_closed hclosed]
      dsimp only
      rw [ih, List.map_cons]

/-- **A writer that was closed** is merged into no other. -/
theorem merge_closed {other : Writer} (hclosed : other.closed = true) (ws : Workspace) :
    ∃ name, runAt (merge other) ws = (.error (.writerClosed name), ws) := by
  have hbarred : ∃ name, ws.writer.checkMerge other = .error (.writerClosed name) := by
    unfold checkMerge
    rw [checkOpen_closed hclosed, error_bind]
    cases hours : ws.writer.closed with
    | true => exact ⟨_, by rw [checkOpen_closed hours, error_bind]⟩
    | false => exact ⟨_, by rw [checkOpen, hours, if_neg Bool.false_ne_true, ok_bind]⟩
  obtain ⟨name, hbarred⟩ := hbarred
  refine ⟨name, ?_⟩
  rw [merge_eq, runAt_writer]
  exact runAt_refused hbarred _ _

/-- **Closing is truthful and final.** Any number of writers share the files of one store; they are
made, take rows, are flushed, merged and closed, nothing fails, and no name is another's with the
ending of a file of values. When one of them is closed, one summary is given, and it is true: the
file is as long as it says and has as many rows as were delivered; it says that there are values out
of line exactly when some row has one by the options of the writer that took it; if so, the file of
values is as long as the values of all stripes together, and if not, there is none any more. The
rows are read back from the file, which lists those stripes, if its numbers fit into the messages.
From then on, whatever is asked of the writer and whatever else has become of the archive, nothing
changes, neither files nor the log nor the summaries; it is refused, unless it is to close again.
Nor is the writer merged into another one. -/
theorem close_truthful (hlibrary : BlockLibrary.Restores)
    (hnames : ∀ name name', names name → names name' → Path.same (toastFileName name) name' = false)
    (hrun : Run Note.deliveries (.strict names) archive register)
    (hmember : register i = some (w, ds))
    (hclose : runAt close { writer := w, archive } = (.ok (), ws)) :
    (∃ summary, ws.archive.summaries = archive.summaries ++ [summary] ∧
        summary.Tells w.options w.toastFile.isSome ws.archive.store ws.writer.stripes ds) ∧
      (ws.writer.Fits → ∀ reading : ReaderOptions, reading.filter = none → reading.deleted = none →
        (∀ schema, reading.schema = some schema → schema = w.options.schema) →
        ∃ r, Reader.ofFile ws.archive.store w.options.fileName reading = .ok r ∧
          r.footer.stripes = ws.writer.stripes ∧
          ∀ k, ((r.after ws.archive.store (List.replicate k .next)).next ws.archive.store).1 =
            .ok (ds.map Delivery.row)[k]?) ∧
      ∀ later : Archive,
        (∀ requests : List Request, answers requests { writer := ws.writer, archive := later } =
          (requests.map (Request.late w.options.fileName),
            { writer := ws.writer, archive := later })) ∧
        ∀ a : Writer, ∃ name, runAt (merge ws.writer) { writer := a, archive := later } =
          (.error (.writerClosed name), { writer := a, archive := later }) := by
  -- what is needed of the writer follows from the ledger that it has besides
  obtain ⟨roster, hsession, hsame⟩ := hrun.tracked deliveries_track
  obtain ⟨l, hlisted, hrows⟩ := hsame i w ds hmember
  have hclean := Session.clean hsession hlisted
  have hfollows := (Session.held hlibrary hsession).follows i w l hlisted
  have hleads := Session.led hlibrary hsession hlisted (.inl hnames)
  have haccounts := hrun.accounts hlibrary i w ds hmember
  refine ⟨close_tells hlibrary hclose hfollows hclean hleads haccounts hrows, ?_, ?_⟩
  · intro hfits reading hfilter hdeleted hschema
    rw [hrows]
    exact close_read hlibrary hclose hfollows hclean hleads hfits reading hfilter hdeleted hschema
  · -- a writer that has closed its file has set the mark that every request looks at first
    obtain ⟨w₁, file, store, hflush, -, rfl, -⟩ := close_ok hfollows.isOpen hclose
    obtain ⟨hadvances, -⟩ := flush_follows hlibrary hfollows hflush
    intro later
    refine ⟨?_, fun a => merge_closed rfl _⟩
    intro requests
    rw [answers_closed rfl]
    dsimp only
    rw [hadvances.options]

omit [Library] in
/-- The same text is not out of line for one writer, but for another, which is merged into it: the
summary says that there are values out of line, and goes on to be true. -/
theorem close_truthful_merged :
    ∃ (merged closed : Workspace) (summary : WriteSummary) (file : FileId) (r : Reader),
      runAt (@close .verbatim) merged = (.ok (), closed) ∧
      closed.archive.summaries = merged.archive.summaries ++ [summary] ∧ summary.tuples = 3 ∧
      summary.hasToast = true ∧ closed.archive.store.open? "f.toast" = .ok file ∧
      closed.archive.store.length file = 3 ∧ Reader.ofFile closed.archive.store "f" {} = .ok r ∧
      (∀ k, (@Reader.next .verbatim
        (@Reader.after .verbatim closed.archive.store (List.replicate k .next) r)
        closed.archive.store).1 =
          .ok ([[.ofString "abc"], [.ofString "y"], [.ofString "abc"]] : List Row)[k]?) ∧
      ∀ requests : List Request, @answers .verbatim requests closed =
        (requests.map (Request.late "f"), closed) := by
  have hrun : ∃ a b store store' wa wb wm wc, create (textColumn "f" (some 8)) {} = (.ok a, store) ∧
      create (textColumn "g" (some 2)) store = (.ok b, store') ∧
      wa = runAt (@perform .verbatim [.write [.ofString "abc"]])
        { writer := a, archive := { store := store' } } ∧ wa.1 = .ok () ∧
      wb = runAt (@perform .verbatim longText) { writer := b, archive := wa.2.archive } ∧
        wb.1 = .ok () ∧
      wm = runAt (@merge .verbatim wb.2.writer) { writer := wa.2.writer, archive := wb.2.archive } ∧
      wm.1 = .ok () ∧ wc = runAt (@close .verbatim) wm.2 ∧ wc.1 = .ok () ∧
      wm.2.writer.options = textColumn "f" (some 8) ∧
      (wc.2.writer.stripes.map StripeInformation.toastLength).sum = 3 ∧
        @Fits .verbatim wc.2.writer :=
    ⟨_, _, _, _, _, _, _, _, rfl, rfl, rfl, by decide +kernel, rfl, by decide +kernel, rfl,
      by decide +kernel, rfl, by decide +kernel, by decide +kernel, by decide +kernel,
      by decide +kernel⟩
  obtain ⟨a, b, store, store', wa, wb, wm, wc, ha, hb, hwa, hwa', hwb, hwb', hwm, hwm', hwc, hwc',
    hoptions, hsum, hfits⟩ := hrun
  have hlibrary := BlockLibrary.verbatim_restores
  obtain ⟨register, hwritten, hours, htheirs⟩ :=
    @run_two .verbatim (.strict fun name => name = "f" ∨ name = "g") hlibrary _
      .deliveries _ _ _ _ _ _ _ _ _ wa.2
      wb.2 rfl (.inl rfl) (.inr rfl) ha hb (runAt_eq hwa hwa') (runAt_eq hwb hwb')
  have hmerged := @Run.merge .verbatim _ _ _ _ _ _ _ _ _ _ _ _ hwritten hours htheirs
    (runAt_eq hwm hwm')
  rw [perform_deliveries, perform_deliveries] at hmerged
  obtain ⟨⟨summary, hgiven, htells⟩, hread, hrests⟩ :=
    @close_truthful .verbatim _ _ _ 0 _ _ _ hlibrary
      (by rintro _ _ (rfl | rfl) (rfl | rfl) <;> decide) hmerged (Function.update_self 0 _ _)
        (runAt_eq hwc hwc')
  rw [hoptions] at htells hread hrests
  obtain ⟨r, hopen, -, hnext⟩ := hread hfits {} rfl rfl (by intro schema h; cases h)
  -- the text is out of line where the other writer took it
  have htoast : summary.hasToast = true :=
    htells.hasToast.mpr
      ⟨{ options := textColumn "g" (some 2), row := [.ofString "abc"] }, by decide, by decide⟩
  obtain ⟨file, hfile, hlength⟩ := htells.toast htoast
  exact ⟨wm.2, wc.2, summary, file, r, runAt_eq hwc hwc', hgiven, htells.tuples, htoast, hfile,
    hlength.trans hsum, hopen, hnext, (hrests wc.2.archive).1⟩

end Writer

end ColumnFile
