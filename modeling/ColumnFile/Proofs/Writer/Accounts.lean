import ColumnFile.Proofs.Writer.Calls
import ColumnFile.Proofs.Writer.Laid
import ColumnFile.Proofs.Writer.Outside

/-! # Octets out of line are accounted for

Values out of line wait in the columns of a writer, go to the file beside its own with the next
stripe, and come over to another writer with a merge. None of their octets is lost on the way and
none is added, as long as nothing fails: a stripe that is refused would leave its values behind
those that count.

* **`Writer.Tight`** — the file of values is as long as the writer says.
* **`Writer.Gains`** — what a step adds to the file of values, and to what the directory lists of
  it; **`putStripe_gains`**, **`adopt_gains`**, **`flush_gains`** — the steps that do.
* **`Writer.Accounts`** — the writer has the octets out of line of the rows that were delivered, no
  more and no less; **`Call.accounts`**, **`merge_accounts`** — its calls. -/

namespace ColumnFile.Writer

open Writing
open ColumnSet (HoldsFrom)

variable {w w' other : Writer} {store store' : Store} {ws ws' ws'' : Workspace} {n m n' m' : Nat}

/-! ## (1) The file of values -/

/-- **The file of values is tight**: it is another one than that of the stripes, and nothing is
behind the values that count. -/
structure Tight (w : Writer) (store : Store) : Prop where
  foreign : store.foreign = false
  differ : ∀ f, w.file = some f → w.toastFile ≠ some f
  toast : ∀ t, w.toastFile = some t → t < store.contents.length ∧
    (store.get t).length = w.toastOffset

/-- The file of values depends on how much of it counts. -/
theorem Tight.congr (h : w.Tight store) (hfile : w'.file = w.file)
    (htoastFile : w'.toastFile = w.toastFile) (htoastOffset : w'.toastOffset = w.toastOffset) :
    w'.Tight store := by
  refine ⟨h.foreign, ?_, ?_⟩
  · rw [hfile, htoastFile]
    exact h.differ
  · rw [htoastFile, htoastOffset]
    exact h.toast

/-- **The file of values stays tight** while only other files change. -/
theorem Tight.frame (h : w.Tight store) (hforeign : store'.foreign = false)
    (hcount : store.contents.length ≤ store'.contents.length)
    (hget : ∀ t, w.toastFile = some t → store'.get t = store.get t) : w.Tight store' := by
  refine ⟨hforeign, h.differ, ?_⟩
  intro t ht
  obtain ⟨hlt, hlength⟩ := h.toast t ht
  rw [hget t ht]
  exact ⟨Nat.lt_of_lt_of_le hlt hcount, hlength⟩

/-- Octets of stripes go into the other file. -/
theorem Tight.beside (h : w.Tight store) {f : FileId} (hf : w.file = some f) (position : Nat)
    (bs : Bytes) :
    w.Tight (store.write f position bs) := by
  have hwrites : Store.Writes (fun _ => True) store (store.write f position bs) :=
    Store.writes_write trivial _ _
  refine h.frame (hwrites.foreign.trans h.foreign) (Nat.le_of_eq hwrites.count.symm) ?_
  intro t ht
  refine Store.get_write_of_ne ?_ _ _
  rintro rfl
  exact h.differ t hf ht

/-- **Values that are put** behind those so far, and count, leave nothing behind them. -/
theorem Tight.put (h : w.Tight store) {t : FileId} (ht : w.toastFile = some t) (values : Bytes) :
    { w with toastOffset := w.toastOffset + values.length }.Tight
      (store.write t w.toastOffset values) := by
  obtain ⟨hlt, hlength⟩ := h.toast t ht
  have hwrites : Store.Writes (fun _ => True) store (store.write t w.toastOffset values) :=
    Store.writes_write trivial _ _
  refine ⟨hwrites.foreign.trans h.foreign, h.differ, ?_⟩
  intro t' ht'
  cases ht.symm.trans ht'
  rw [hwrites.count, Store.get_write_self h.foreign hlt, ← hlength, Bytes.overwrite_length,
    List.length_append]
  exact ⟨hlt, rfl⟩

/-! ## (2) Steps -/

/-- How many octets out of line the stripes have that are listed. -/
def listed (w : Writer) : Nat := (w.stripes.map StripeInformation.toastLength).sum

/-- **A step gains octets out of line**: `n` of them are put behind those so far, with nothing
behind them, and `m` are those of stripes that are listed. -/
structure Gains (n m : Nat) (ws ws' : Workspace) : Prop where
  tight : ws'.writer.Tight ws'.archive.store
  offset : ws'.writer.toastOffset = ws.writer.toastOffset + n
  listed : ws'.writer.listed = ws.writer.listed + m

/-- What steps gain one after the other adds up. -/
theorem Gains.trans (h : Gains n m ws ws') (h' : Gains n' m' ws' ws'') :
    Gains (n + n') (m + m') ws ws'' :=
  ⟨h'.tight, by rw [h'.offset, h.offset, Nat.add_assoc], by rw [h'.listed, h.listed, Nat.add_assoc]⟩

/-- What is listed is that of the stripes. -/
theorem listed_congr (h : w'.stripes = w.stripes) : w'.listed = w.listed := by
  rw [listed, h]
  rfl

/-- **A stripe that is listed** counts with its values. -/
theorem listed_add {info : StripeInformation} (h : w'.stripes = w.stripes ++ [info]) :
    w'.listed = w.listed + info.toastLength := by
  rw [listed, h, List.map_append, List.sum_append]
  rfl

/-- **The octets of a stripe** go beside the values; none is gained, and the stripe is not listed
yet. -/
theorem putData_gains {stripe : Bytes} (h : runAt (putData stripe) ws = (.ok (), ws'))
    (htight : ws.writer.Tight ws.archive.store) :
    Gains 0 0 ws ws' ∧ ws'.writer.stripes = ws.writer.stripes := by
  obtain ⟨file, sink, log, hfile, rfl⟩ := putData_ok h
  exact ⟨⟨(htight.beside hfile _ _).congr rfl rfl rfl, rfl, rfl⟩, rfl⟩

/-- **Columns that are put as a stripe** gain what they have out of line, and the stripe is listed
with it. -/
theorem putStripe_gains [Library] {columns columns' : ColumnSet}
    {statistics : List ColumnStatistics}
    (h : runAt (putStripe columns statistics) ws = (.ok columns', ws'))
    (htight : ws.writer.Tight ws.archive.store) :
    Gains columns'.external.length columns'.external.length ws ws' := by
  obtain ⟨image, w₁, w₂, -, htoast, hdata, rfl⟩ := putStripe_ok h
  -- the values are there before they count
  have hput : { w₁.writer with
        toastOffset := w₁.writer.toastOffset + columns'.external.length }.Tight w₁.archive.store ∧
      w₁.writer = ws.writer := by
    rcases putToast_ok htoast with ⟨hnone, rfl⟩ | ⟨t, -, ht, rfl⟩
    · rw [hnone]
      exact ⟨htight.congr rfl rfl rfl, rfl⟩
    · exact ⟨htight.put ht _, rfl⟩
  obtain ⟨hput, hsame⟩ := hput
  obtain ⟨file, sink, log, hfile, rfl⟩ := putData_ok hdata
  refine ⟨(hput.beside hfile _ _).congr rfl rfl rfl, ?_, ?_⟩
  · show w₁.writer.toastOffset + _ = _
    rw [hsame]
  · rw [listed_add (w := w₁.writer) rfl, hsame]

/-- **Values that are copied** from another writer are put, and their stripes not listed yet. -/
theorem copyToast_gains (h : runAt (copyToast other) ws = (.ok (), ws'))
    (htight : ws.writer.Tight ws.archive.store) : Gains other.toastOffset 0 ws ws' := by
  rcases copyToast_ok h with ⟨hnone, rfl⟩ | ⟨theirs, ours, values, -, -, hours, hread, rfl⟩
  · exact ⟨htight, by rw [hnone]; rfl, rfl⟩
  · have hlength := Bytes.length_of_slice? ((Store.read_eq_ok htight.foreign).mp hread)
    rw [← hlength]
    exact ⟨htight.put hours values, rfl, rfl⟩

/-- **A stripe that is copied** is listed with its values, which were copied before. -/
theorem copyStripe_gains {toastBase : Nat} {info : StripeInformation}
    (h : runAt (copyStripe other toastBase info) ws = (.ok (), ws'))
    (htight : ws.writer.Tight ws.archive.store) : Gains 0 info.toastLength ws ws' := by
  obtain ⟨theirs, stripe, w₁, -, -, hput, rfl⟩ := copyStripe_ok h
  obtain ⟨hgains, hstripes⟩ := putData_gains hput htight
  refine ⟨hgains.tight.congr rfl rfl rfl, hgains.offset, ?_⟩
  rw [listed_add (w := w₁.writer) rfl, listed_congr hstripes]

/-- **Stripes that are copied** are listed with their values. -/
theorem copyStripes_gains {toastBase : Nat} {infos : List StripeInformation}
    (h : runAt (infos.forM (copyStripe other toastBase)) ws = (.ok (), ws'))
    (htight : ws.writer.Tight ws.archive.store) :
    Gains 0 (infos.map StripeInformation.toastLength).sum ws ws' := by
  induction infos generalizing ws with
  | nil =>
      cases h
      exact ⟨htight, rfl, rfl⟩
  | cons info infos ih =>
      obtain ⟨⟨⟩, w₁, hfirst, hrest⟩ := bind_ok h
      have hgains := copyStripe_gains hfirst htight
      have hboth := hgains.trans (ih hrest hgains.tight)
      rw [List.map_cons, List.sum_cons]
      exact hboth

variable [Library] {l l' : Ledger} {deliveries deliveries' : List Delivery}

/-- Columns without rows have nothing out of line. -/
theorem Keeps.external_nil {rows : List Row} (h : w.Keeps rows)
    (hvalid : w.options.validate = .ok ()) (hnone : w.columns.rows = 0) :
    w.columns.external = [] := by
  rw [h.rows_eq hvalid, List.length_eq_zero_iff] at hnone
  obtain ⟨cells, hcells, hshows⟩ := h.cells
  refine ColumnSet.external_eq_nil hcells ?_
  intro i hi
  have hcolumn := hshows.column (List.getElem?_eq_getElem hi)
  rw [hnone] at hcolumn
  exact List.forall₂_nil_right_iff.mp hcolumn

/-- **The rows that a writer keeps**, put as a stripe, gain what its columns have out of line. -/
theorem Keeps.gains {rows : List Row} {statistics : List ColumnStatistics} {columns : ColumnSet}
    (hkeeps : other.Keeps rows)
    (h : runAt (putStripe other.columns statistics) ws = (.ok columns, ws'))
    (htight : ws.writer.Tight ws.archive.store) :
    Gains other.columns.external.length other.columns.external.length ws ws' := by
  obtain ⟨cells, hcells, -⟩ := hkeeps.cells
  obtain ⟨image, -, -, hserialize, -⟩ := putStripe_ok h
  rw [← ColumnSet.external_serialize hcells hserialize]
  exact putStripe_gains h htight

/-- **A flush** puts what the columns have out of line, and goes on with columns that have nothing
there. -/
theorem flush_gains {rows : List Row} (h : runAt flush ws = (.ok (), ws'))
    (hkeeps : ws.writer.Keeps rows) (hvalid : ws.writer.options.validate = .ok ())
    (htight : ws.writer.Tight ws.archive.store) :
    Gains ws.writer.columns.external.length ws.writer.columns.external.length ws ws' ∧
      ws'.writer.columns.external = [] := by
  obtain ⟨-, ⟨hnone, rfl⟩ | ⟨fresh, columns, w₁, fresh', -, hput, hfresh, rfl⟩⟩ := flush_ok h
  · have hnil := hkeeps.external_nil hvalid hnone
    rw [hnil]
    exact ⟨⟨htight, rfl, rfl⟩, rfl⟩
  · have hgains := hkeeps.gains hput (htight.congr rfl rfl rfl)
    exact ⟨⟨hgains.tight.congr rfl rfl rfl, hgains.offset, hgains.listed⟩, external_fresh hfresh⟩

/-- **What comes over** from another writer: the values that it has put, and those that it still
keeps. -/
theorem adopt_gains {rows : List Row} (h : runAt (adopt other) ws = (.ok (), ws'))
    (hkeeps : other.Keeps rows) (hvalid : other.options.validate = .ok ())
    (htight : ws.writer.Tight ws.archive.store) :
    Gains (other.toastOffset + other.columns.external.length)
      (other.listed + other.columns.external.length)
      ws ws' := by
  have h := writer_ok h
  obtain ⟨⟨⟩, w₁, hcopy, h⟩ := bind_ok h
  obtain ⟨⟨⟩, w₂, hcopies, hrows⟩ := bind_ok h
  have hgains₁ := copyToast_gains hcopy htight
  have hgains₂ := hgains₁.trans (copyStripes_gains hcopies hgains₁.tight)
  have hlast : Gains other.columns.external.length other.columns.external.length w₂ ws' := by
    rcases takeRows_ok hrows with ⟨hnone, rfl⟩ | ⟨columns, -, hput⟩
    · rw [hkeeps.external_nil hvalid hnone]
      exact ⟨hgains₂.tight, rfl, rfl⟩
    · exact hkeeps.gains hput hgains₂.tight
  have hall := hgains₂.trans hlast
  rw [Nat.add_zero, Nat.zero_add] at hall
  exact hall

/-! ## (3) Accounts -/

/-- **The octets out of line of a writer are accounted for**: those in its file of values are those
of the stripes that it lists, and together with those in its columns they are those of the rows that
were delivered. -/
structure Accounts (w : Writer) (store : Store) (deliveries : List Delivery) :
    Prop extends Tight w store where
  listed : w.listed = w.toastOffset
  octets : w.toastOffset + w.columns.external.length = Delivery.octets deliveries

omit [Library] in
/-- Accounts do not depend on the sink of a writer, nor on what it counts for its summary. -/
theorem Accounts.equip (h : w.Accounts store deliveries) (sink : Option LogSink)
    (summary : Option Collector) :
    { w with sink, summaryStatistics := summary }.Accounts store deliveries :=
  ⟨h.toTight.congr rfl rfl rfl, h.listed, h.octets⟩

omit [Library] in
/-- **Accounts stay** while only files of others change. -/
theorem Accounts.frame (h : w.Accounts store deliveries) (hforeign : store'.foreign = false)
    (hcount : store.contents.length ≤ store'.contents.length)
    (hget : ∀ file, w.Owns file → store'.get file = store.get file) :
    w.Accounts store' deliveries :=
  ⟨h.toTight.frame hforeign hcount fun t ht => hget t (.inr ht), h.listed, h.octets⟩

/-- **A new writer** has nothing out of line. -/
theorem create_accounts {options : WriterOptions} (hstore : store.foreign = false)
    (h : create options store = (.ok w, store')) : w.Accounts store' [] := by
  obtain ⟨hstored, -, -⟩ := create_stored hstore h
  obtain ⟨f, hf, -, -, hother, -⟩ := hstored.file
  obtain ⟨file, store₁, toastFile, columns, -, hcreate, htoast, hcolumns, rfl⟩ := create_ok h
  refine ⟨⟨hstored.foreign, ?_, ?_⟩, rfl, ?_⟩
  · rintro f' hf'
    cases hf.symm.trans hf'
    exact hother
  · -- the file was created, and is empty
    intro t ht
    refine ⟨(hstored.toast t ht).1, ?_⟩
    have hown := (Store.create_grows hstore hcreate).foreign
    rcases createToast_ok htoast with ⟨hnone, -⟩ | ⟨t', hsome, hcreate'⟩
    · cases hnone.symm.trans ht
    · cases hsome.symm.trans ht
      obtain ⟨-, rfl, -⟩ := Store.create_eq_ok hown hcreate'
      rw [Store.get_create hown hcreate', Store.get, List.getD_eq_getElem?_getD,
        List.getElem?_eq_none (Nat.le_refl _)]
      rfl
  · show 0 + columns.external.length = 0
    rw [external_fresh hcolumns]
    rfl

/-- **A flush** moves what waits in the columns to the file of values. -/
theorem flush_accounts {rows : List Row} (h : runAt flush ws = (.ok (), ws'))
    (hkeeps : ws.writer.Keeps rows) (hvalid : ws.writer.options.validate = .ok ())
    (haccounts : ws.writer.Accounts ws.archive.store deliveries) :
    ws'.writer.Accounts ws'.archive.store deliveries ∧ ws'.writer.columns.external = [] := by
  obtain ⟨hgains, hnil⟩ := flush_gains h hkeeps hvalid haccounts.toTight
  refine ⟨⟨hgains.tight, ?_, ?_⟩, hnil⟩
  · rw [hgains.listed, hgains.offset, haccounts.listed]
  · rw [hgains.offset, hnil]
    exact haccounts.octets

/-- The rows that some calls write, as deliveries to a writer with some options. -/
def delivered (options : WriterOptions) (calls : List Call) : List Delivery :=
  (written calls).map fun row => { options, row }

omit [Library] in
/-- The deliveries of a call come before those of the calls behind it. -/
theorem delivered_cons (options : WriterOptions) (call : Call) (calls : List Call) :
    delivered options (call :: calls) = delivered options [call] ++ delivered options calls := by
  rw [delivered, written_cons, List.map_append]
  rfl

/-- **A call that succeeds** adds the octets out of line of the row that it writes. -/
theorem Call.accounts {call : Call} (h : runAt call.step ws = (.ok (), ws'))
    (hfollows : ws.writer.Follows ws.archive.store l)
    (haccounts : ws.writer.Accounts ws.archive.store deliveries) :
    ws'.writer.Accounts ws'.archive.store (deliveries ++ delivered ws.writer.options [call]) := by
  cases call with
  | flush =>
      rw [show delivered ws.writer.options [.flush] = [] from rfl, List.append_nil]
      exact (flush_accounts h hfollows.keeps hfollows.valid haccounts).1
  | write row =>
      obtain ⟨-, hwidth, values, columns, w₁, hvalues, happend, hcount, hlast⟩ := write_ok h
      have hkeeps := hfollows.keeps.append hwidth hvalues happend
      obtain ⟨cells, hcells, -⟩ := hfollows.keeps.cells
      have hgrown := appendValues_outside hcells hwidth hvalues happend
      obtain ⟨stripeStatistics, fileStatistics, summaryStatistics, -, -, -, rfl⟩ := count_ok hcount
      -- the row waits in the columns, and a flush behind it only moves it on
      have hoctets : ws.writer.toastOffset + columns.external.length =
          Delivery.octets (deliveries ++ delivered ws.writer.options [.write row]) := by
        rw [hgrown, ← Nat.add_assoc, haccounts.octets, Delivery.octets_append]
        simp [Delivery.octets, Delivery.outside, delivered, written]
      rcases hlast with ⟨-, -, rfl⟩ | ⟨-, hflush⟩
      · exact ⟨haccounts.toTight.congr rfl rfl rfl, haccounts.listed, hoctets⟩
      · exact (flush_accounts hflush ⟨hkeeps.cells, hkeeps.learned⟩ hfollows.valid
          ⟨haccounts.toTight.congr rfl rfl rfl, haccounts.listed, hoctets⟩).1

/-- **A merge** adds the octets out of line of the other writer. -/
theorem merge_accounts (h : runAt (merge other) ws = (.ok (), ws'))
    (hours : ws.writer.Follows ws.archive.store l) (htheirs : other.Follows store l')
    (haccounts : ws.writer.Accounts ws.archive.store deliveries)
    (haccounts' : other.Accounts store deliveries') :
    ws'.writer.Accounts ws'.archive.store (deliveries ++ deliveries') := by
  obtain ⟨-, w₁, w₂, w₃, hflush, hadopt, hstatistics, hdelete⟩ := merge_ok h
  -- after the flush our columns are empty, and what comes over is all that the other writer has
  obtain ⟨hflushed, hnil⟩ := flush_accounts hflush hours.keeps hours.valid haccounts
  have hgains := adopt_gains hadopt htheirs.keeps htheirs.valid hflushed.toTight
  have hlays := adopt_lays other hadopt
  obtain ⟨summaryStatistics, fileStatistics, -, -, rfl⟩ := takeStatistics_ok hstatistics
  obtain ⟨store', rfl, hforeign, hcontents, -⟩ := deleteFiles_named hdelete
  have hcolumns : w₂.writer.columns.external = [] := by
    obtain ⟨offset, toastOffset, stripes, sink, hwriter⟩ := hlays.writer
    rw [hwriter]
    exact hnil
  have htight : w₂.writer.Tight store' := by
    refine hgains.tight.frame (hforeign.trans hgains.tight.foreign)
      (Nat.le_of_eq (congrArg List.length hcontents.symm)) ?_
    intro t _
    rw [Store.get, Store.get, hcontents]
  refine ⟨htight.congr rfl rfl rfl, ?_, ?_⟩
  · show w₂.writer.listed = w₂.writer.toastOffset
    rw [hgains.listed, hgains.offset, hflushed.listed, haccounts'.listed]
  · show w₂.writer.toastOffset + w₂.writer.columns.external.length = _
    have hours := hflushed.octets
    rw [hnil, List.length_nil, Nat.add_zero] at hours
    rw [hcolumns, hgains.offset, hours, haccounts'.octets, Delivery.octets_append, List.length_nil,
      Nat.add_zero]

end ColumnFile.Writer
