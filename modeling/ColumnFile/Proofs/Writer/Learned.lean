import ColumnFile.Proofs.Stripe.Fallback
import ColumnFile.Proofs.Writer.Crew
import ColumnFile.Proofs.Writer.Laid

/-! # What writers learn from their stripes

A writer makes its columns anew for every stripe, and hands on to them what those before have
learned: that a dictionary was given up. It is learned only from stripes that are listed. Rows whose
stripe is refused are lost, and nothing is learned from them; nor from stripes that are copied from
another writer.

* **`StripeInformation.Records`** — the encoding that the footer of a stripe records.
* **`Writer.Written`** — a stripe that was made of some columns, with what these have learned;
  **`Writer.putStripe_written`**.
* **`Writer.Lists`** — what a step lists; one lemma for each call, **`Writer.Task.lists`** for all
  tasks.
* **`Writer.Leftover`** — the rows that another writer kept, and **`Writer.merge_leftover`**. -/

namespace ColumnFile

/-- **A dictionary is chosen** for a column of variable length. -/
def WriterOptions.Tries (options : WriterOptions) (k : Nat) : Prop :=
  ∃ spec, options.schema[k]? = some spec ∧ spec.kind.fixedWidth = none ∧
    (options.choice k).kind = .dictionary

namespace StripeInformation

variable {info : StripeInformation} {store store' : Store} {file : FileId} {k : Nat}
  {kind : Encoding}

/-- Where the stripe ends. -/
def stop (info : StripeInformation) : Nat := info.offset + info.length

/-- **A stripe records an encoding** for the data of a column, in the footer that is in its file. -/
def Records (info : StripeInformation) (store : Store) (file : FileId) (k : Nat) (kind : Encoding) :
    Prop :=
  ∃ (footer : StripeFooter) (encoding : ColumnEncoding),
    (store.get file).slice? (info.offset + info.dataLength) info.footerLength =
      some (Message.encode footer) ∧
      footer.encodings[k]? = some encoding ∧ encoding.data.kind = kind

/-- **What a stripe records** stays when its octets stay. -/
theorem Records.keep (h : info.Records store file k kind)
    (htake : (store'.get file).take info.stop = (store.get file).take info.stop) :
    info.Records store' file k kind := by
  obtain ⟨footer, encoding, hfooter, hencoding⟩ := h
  exact ⟨footer, encoding, Bytes.slice?_of_take htake (Nat.le_of_eq (Nat.add_assoc _ _ _)) hfooter,
    hencoding⟩

end StripeInformation

namespace Writer

open Writing

variable [Library] {ws ws' ws₁ : Workspace} {other : Writer} {file : FileId}
  {info : StripeInformation}
  {columns columns' after : ColumnSet} {statistics : List ColumnStatistics} {k : Nat}
  {givenUp : Bool} {e : Fault} {outcome : Except Fault Unit}

/-! ## (1) Stripes -/

omit [Library] in
/-- **A stripe was made** of columns: it is in a file, where the writer leaves it alone, and it
records what the trials of the columns came to. -/
structure Written (columns after : ColumnSet) (file : FileId) (info : StripeInformation)
    (ws : Workspace) :
    Prop where
  leaves : ws.writer.Leaves file info.stop
  within : info.stop ≤ (ws.archive.store.get file).length
  trial : ∀ k givenUp, columns.OnTrial k givenUp → ∃ givenUp', givenUp ≤ givenUp' ∧
    info.Records ws.archive.store file k (Column.trialKind givenUp') ∧ after.OnTrial k givenUp'

omit [Library] in
/-- **A stripe stays** as it was made while the writer proceeds. -/
theorem Written.proceed (h : Written columns after file info ws) (hproceeds : Proceeds ws ws') :
    Written columns after file info ws' := by
  have hkept := hproceeds.kept file info.stop h.within h.leaves
  refine ⟨hproceeds.leaves h.leaves, Bytes.le_length_of_take hkept h.within,
    fun k givenUp htrial => ?_⟩
  obtain ⟨givenUp', hle, hrecords, hafter⟩ := h.trial k givenUp htrial
  exact ⟨givenUp', hle, hrecords.keep hkept, hafter⟩

/-- **Columns that were put** as a stripe are listed, and their footer is in the file. -/
theorem putStripe_written (h : runAt (putStripe columns statistics) ws = (.ok after, ws'))
    (hsound : ws.writer.Sound ws.archive.store) :
    ∃ file info, ws.writer.file = some file ∧ ws'.writer.stripes = ws.writer.stripes ++ [info] ∧
      Written columns after file info ws' := by
  obtain ⟨image, w₁, w₂, hserialize, htoast, hdata, rfl⟩ := putStripe_ok h
  obtain ⟨hwriter, -⟩ := putToast_there htoast hsound
  have hsound₁ := (putToast_safe _ htoast hsound).sound
  obtain ⟨file, sink, log, hfile, rfl⟩ := putData_ok hdata
  obtain ⟨hlt, hposition⟩ := hsound₁.file file hfile
  have hstripe := Bytes.slice?_overwrite (image.data ++ Message.encode image.footer) hposition
  rw [← Store.get_write_self hsound₁.foreign hlt] at hstripe
  have hfooter := Bytes.slice?_slice? hstripe
    (Bytes.slice?_append_right image.data (Message.encode image.footer))
  have hlength := Bytes.le_of_slice? hstripe
  rw [List.length_append] at hlength
  refine ⟨file, _, hwriter ▸ hfile, congrArg (·.stripes ++ _) hwriter, ?_⟩
  refine ⟨⟨fun _ => Nat.le_refl _, fun ht => absurd ht (hsound₁.differ file hfile)⟩, hlength, ?_⟩
  intro k givenUp htrial
  obtain ⟨givenUp', encoding, hle, hafter, hencoding, hkind⟩ :=
    ColumnSet.serialize_onTrial htrial hserialize
  exact ⟨givenUp', hle, ⟨image.footer, encoding, hfooter, hencoding, hkind⟩, hafter⟩

/-- **Columns that were not put** as a stripe are not listed: at most the sink of the writer
changes. -/
theorem putStripe_unlisted (h : runAt (putStripe columns statistics) ws = (.error e, ws')) :
    ∃ sink, ws'.writer = { ws.writer with sink } := by
  rcases putStripe_failed h with rfl | ⟨values, stripe, w₁, htoast, hdata⟩
  · exact ⟨_, rfl⟩
  · obtain ⟨⟨sink, log, rfl⟩, -⟩ := putData_failed hdata
    rcases putToast_ok htoast with ⟨-, rfl⟩ | ⟨file, -, -, rfl⟩
    · exact ⟨sink, rfl⟩
    · exact ⟨sink, rfl⟩

omit [Library] in
/-- **New columns** take up what those before them have learned. -/
theorem freshColumns_onTrial {options : WriterOptions} {attributes : List Attributes}
    (htries : options.Tries k) (hlesson : attributes[k]?.getD [] = Column.lesson givenUp)
    (h : freshColumns options attributes = .ok columns) :
    columns.OnTrial k givenUp := by
  obtain ⟨spec, hspec, hvaries, hchoice⟩ := htries
  obtain ⟨list, hlist, h⟩ := bind_eq_ok h
  cases h
  refine ColumnSet.newFrom_onTrial hspec hvaries ?_ hlesson hlist
  rw [Nat.zero_add]
  exact hchoice

omit [Library] in
/-- **Columns that are made anew** stand where those before them stood. -/
theorem again_onTrial {options : WriterOptions} (h : columns.OnTrial k givenUp)
    (htries : options.Tries k) (hfresh : freshColumns options columns.attributes = .ok columns') :
    columns'.OnTrial k givenUp := by
  refine freshColumns_onTrial htries ?_ hfresh
  rw [h.attributes_eq, Option.getD_some]

/-! ## (2) What a step lists -/

omit [Library] in
/-- **A writer continues**: it has learned nothing since, and has no file that it did not have. -/
structure Continues (w w' : Writer) : Prop where
  options : w'.options = w.options
  file : ∀ f, w'.file = some f → w.file = some f
  trial : ∀ k givenUp, w.options.Tries k → w.columns.OnTrial k givenUp →
    w'.columns.OnTrial k givenUp

omit [Library] in
/-- **A writer is still where it was**: it has listed nothing either. -/
structure Still (w w' : Writer) : Prop extends Continues w w' where
  stripes : w'.stripes = w.stripes

omit [Library] in
/-- **What a step lists**: nothing, or one stripe that was made of the rows so far; its lesson is
handed on. -/
inductive Lists (ws ws' : Workspace) : Prop
  /-- Nothing is listed. -/
  | still (h : Still ws.writer ws'.writer)
  /-- A stripe is listed. -/
  | listed {file : FileId} {info : StripeInformation} {columns after : ColumnSet}
      (home : ws.writer.file = some file) (options : ws'.writer.options = ws.writer.options)
      (stripes : ws'.writer.stripes = ws.writer.stripes ++ [info])
      (grown : ∀ k givenUp, ws.writer.options.Tries k → ws.writer.columns.OnTrial k givenUp →
        columns.OnTrial k givenUp)
      (written : Written columns after file info ws')
      (learned : ∀ k givenUp, ws.writer.options.Tries k → after.OnTrial k givenUp →
        ws'.writer.columns.OnTrial k givenUp)

omit [Library] in
/-- A writer continues with the same columns. -/
theorem continues_of_eq {w w' : Writer} (hoptions : w'.options = w.options)
    (hfile : ∀ f, w'.file = some f → w.file = some f) (hcolumns : w'.columns = w.columns) :
    Continues w w' :=
  ⟨hoptions, hfile, fun _ _ _ htrial => hcolumns ▸ htrial⟩

omit [Library] in
/-- A writer is still as it is. -/
theorem still_refl (w : Writer) : Still w w := ⟨continues_of_eq rfl (fun _ hf => hf) rfl, rfl⟩

omit [Library] in
/-- A writer that continues goes on to do so. -/
theorem Continues.trans {w w₁ w' : Writer} (h : Continues w w₁) (h' : Continues w₁ w') :
    Continues w w' :=
  ⟨h'.options.trans h.options, fun f hf => h.file f (h'.file f hf),
    fun k givenUp htries htrial =>
      h'.trial k givenUp (h.options ▸ htries) (h.trial k givenUp htries htrial)⟩

omit [Library] in
/-- **A step that lists nothing**, and then one that may list something. -/
theorem Still.before (h : Still ws.writer ws₁.writer) (h' : Lists ws₁ ws') : Lists ws ws' := by
  cases h' with
  | still h' => exact .still ⟨h.toContinues.trans h'.toContinues, h'.stripes.trans h.stripes⟩
  | listed home options stripes grown written learned =>
      refine .listed (h.file _ home) (options.trans h.options) (h.stripes ▸ stripes) ?_ written ?_
      · exact fun k givenUp htries htrial =>
          grown k givenUp (h.options ▸ htries) (h.trial k givenUp htries htrial)
      · exact fun k givenUp htries hafter => learned k givenUp (h.options ▸ htries) hafter

omit [Library] in
/-- **A step that may list something**, and then one that lists nothing and proceeds. -/
theorem Still.behind (h' : Still ws₁.writer ws'.writer) (hproceeds : Proceeds ws₁ ws')
    (h : Lists ws ws₁) :
    Lists ws ws' := by
  cases h with
  | still h => exact .still ⟨h.toContinues.trans h'.toContinues, h'.stripes.trans h.stripes⟩
  | listed home options stripes grown written learned =>
      refine .listed home (h'.options.trans options) (h'.stripes.trans stripes) grown
        (written.proceed hproceeds) ?_
      exact fun k givenUp htries hafter =>
        h'.trial k givenUp (options ▸ htries) (learned k givenUp htries hafter)

/-! ## (3) The calls -/

/-- **A flush** lists a stripe, and hands on what its columns have learned; or it fails and hands on
what was known before, since the new columns are made before the stripe is. -/
theorem flush_lists (h : runAt flush ws = (outcome, ws'))
    (hvalid : ws.writer.options.validate = .ok ()) (hsound : ws.writer.Sound ws.archive.store) :
    Lists ws ws' := by
  cases hclosed : ws.writer.closed with
  | true =>
      have h := writer_ok h
      rw [checkOpen_closed hclosed] at h
      cases h
      exact .still (still_refl _)
  | false =>
      cases outcome with
      | error e =>
          -- the columns of the refused stripe are gone, and what they learned with them
          obtain ⟨fresh, hfresh, hput⟩ := flush_failed hclosed hvalid h
          obtain ⟨sink, hwriter⟩ := putStripe_unlisted hput
          refine .still ?_
          rw [hwriter]
          exact ⟨⟨rfl, fun _ hf => hf, fun k givenUp htries htrial =>
            again_onTrial htrial htries hfresh⟩, rfl⟩
      | ok u =>
          obtain ⟨-, ⟨-, rfl⟩ | ⟨fresh, after, w₁, fresh', -, hput, hfresh, rfl⟩⟩ := flush_ok h
          · exact .still (still_refl _)
          obtain ⟨file, info, hfile, hstripes, hwritten⟩ :=
            putStripe_written hput (hsound.withColumns fresh)
          obtain ⟨offset, toastOffset, stripes, sink, hwriter⟩ := (putStripe_lays _ _ hput).writer
          refine .listed hfile ?_ hstripes (fun _ _ _ htrial => htrial)
            ⟨hwritten.leaves, hwritten.within, hwritten.trial⟩ fun k givenUp htries hafter => ?_
          · show w₁.writer.options = _
            rw [hwriter]
          · exact again_onTrial hafter htries hfresh

omit [Library] in
/-- **Values that are appended**, all of them or some, teach nothing. -/
theorem appendValues_onTrial (threshold : Option Nat) (values : List (Option Bytes))
    (h : columns.OnTrial k givenUp) :
    (appendValues threshold columns values).2.OnTrial k givenUp := by
  refine appendValues_keeps threshold (P := fun s => s.OnTrial k givenUp) values
    (fun s i value hs => hs.modify ?_ i) h
  intro c hc
  unfold appendValue
  split
  · exact hc.appendNull
  · split
    · exact hc.appendToast _
    · exact hc.append _
  · exact hc.append _

/-- **A row that is counted**, or is not, leaves the columns alone. -/
theorem count_still {row : Row} (h : runAt (count row) ws = (outcome, ws')) :
    Still ws.writer ws'.writer := by
  cases outcome with
  | error e =>
      rcases count_failed h with ⟨-, rfl⟩ | ⟨_, -, -, rfl⟩ | ⟨_, _, _, -, -, -, -, rfl⟩
      all_goals exact ⟨continues_of_eq rfl (fun _ hf => hf) rfl, rfl⟩
  | ok u =>
      obtain ⟨_, _, _, -, -, -, rfl⟩ := count_ok h
      exact ⟨continues_of_eq rfl (fun _ hf => hf) rfl, rfl⟩

/-- **A row that is written**, or is not, may bring a flush about. -/
theorem write_lists {row : Row} (h : runAt (write row) ws = (outcome, ws'))
    (hvalid : ws.writer.options.validate = .ok ()) (hsound : ws.writer.Sound ws.archive.store) :
    Lists ws ws' := by
  -- however many columns take their values
  have happended : ∀ {appended : Except Fault Unit} {values : List (Option Bytes)}
    {columns : ColumnSet},
      appendValues ws.writer.options.toastThreshold ws.writer.columns values = (appended, columns) →
      Lists { ws with writer := { ws.writer with columns } } ws' → Lists ws ws' := by
    intro appended values columns happend
    refine Still.before ⟨⟨rfl, fun _ hf => hf, fun k givenUp _ htrial => ?_⟩, rfl⟩
    have hgrown := appendValues_onTrial ws.writer.options.toastThreshold values htrial
    rw [happend] at hgrown
    exact hgrown
  have htaken : Takes row outcome ws ws' → Lists ws ws' := by
    rintro ⟨-, values, columns, w₁, -, happend, hcount, hrest⟩
    have hstill := count_still hcount
    refine happended happend (hstill.before ?_)
    rcases hrest with ⟨-, -, rfl⟩ | ⟨-, hflush⟩
    · exact .still (still_refl _)
    · refine flush_lists hflush (hstill.options ▸ hvalid) ?_
      exact (count_safe row hcount (hsound.withColumns columns)).sound
  cases outcome with
  | ok u => exact htaken (write_ok h).2
  | error e =>
      rcases write_failed h with rfl | ⟨-, values, columns, -, ⟨happend, rfl⟩ | ⟨happend, hcount⟩⟩ |
        htakes
      · exact .still (still_refl _)
      · exact happended happend (.still (still_refl _))
      · exact happended happend (.still (count_still hcount))
      · exact htaken htakes

/-- **The end of a file** lists nothing. -/
theorem Ends.still (h : Ends ws ws') : Still ws.writer ws'.writer := by
  rcases h with ⟨-, rfl⟩ | ⟨file, store, closed, summaries, -, rfl, -, -⟩
  · exact ⟨continues_of_eq rfl (fun _ hf => nomatch hf) rfl, rfl⟩
  · exact ⟨continues_of_eq rfl (fun _ hf => nomatch hf) rfl, rfl⟩

/-- **What every task lists.** -/
theorem Task.lists (task : Task) (h : runAt task.step ws = (outcome, ws'))
    (hvalid : ws.writer.options.validate = .ok ()) (hsound : ws.writer.Sound ws.archive.store) :
    Lists ws ws' := by
  cases task with
  | write row => exact write_lists h hvalid hsound
  | flush => exact flush_lists h hvalid hsound
  | close =>
      rcases close_cases h with ⟨-, -, rfl⟩ | ⟨e, -, hflush⟩ | ⟨w₁, hflush, hends⟩
      · exact .still (still_refl _)
      · exact flush_lists hflush hvalid hsound
      · have hsound₁ := (flush_safe hflush hsound).sound
        exact hends.still.behind (hsound₁.ends hends) (flush_lists hflush hvalid hsound)

/-! ## (4) Merges -/

/-- **How a merge begins**: it is checked, and the rows so far are flushed. -/
def commence (other : Writer) : Writing Unit := do
  lift ((← writer).checkMerge other)
  flush

/-- A merge begins, and goes on with what comes over. -/
theorem merge_commence (other : Writer) :
    merge other = commence other >>= fun _ => adopt other >>= fun _ =>
      takeStatistics other >>= fun _ =>
      deleteFiles other := by
  rw [merge_eq]
  simp only [commence, bind_assoc]

/-- **What the beginning of a merge lists.** -/
theorem commence_lists (h : runAt (commence other) ws = (outcome, ws'))
    (hvalid : ws.writer.options.validate = .ok ()) (hsound : ws.writer.Sound ws.archive.store) :
    Lists ws ws' := by
  have h := writer_ok h
  rcases lift_cases h with ⟨e, -, -, rfl⟩ | ⟨⟨⟩, -, h⟩
  · exact .still (still_refl _)
  · exact flush_lists h hvalid hsound

/-- **The beginning of a merge** is safe. -/
theorem commence_safe (other : Writer) : Safe (commence other) := by
  unfold commence
  exact within_writer.bind fun w => (within_lift _).bind fun _ => flush_safe

/-- **The rows that another writer kept** when its stripes were copied: they are listed behind these
as one stripe, or not at all. -/
inductive Leftover (other : Writer) (ws ws' : Workspace) : Prop
  /-- There were none, or they did not come over. -/
  | none (listed : ws'.writer.stripes.drop (ws.writer.stripes.length + other.stripes.length) = [])
  /-- They are in a stripe. -/
  | taken {file : FileId} {info : StripeInformation} {after : ColumnSet}
      (home : ws.writer.file = some file)
      (listed : ws'.writer.stripes.drop (ws.writer.stripes.length + other.stripes.length) = [info])
      (written : Written other.columns after file info ws')

omit [Library] in
/-- **Stripes are copied** one behind the other, up to the first that is refused. -/
theorem copyStripes_listed {toastBase : Nat} {infos : List StripeInformation}
    (h : runAt (infos.forM (copyStripe other toastBase)) ws = (outcome, ws')) :
    ws'.writer.stripes.length ≤ ws.writer.stripes.length + infos.length ∧
      (outcome = .ok () → ws'.writer.stripes.length = ws.writer.stripes.length + infos.length) := by
  induction infos generalizing ws with
  | nil =>
      cases h
      exact ⟨Nat.le_refl _, fun _ => rfl⟩
  | cons info infos ih =>
      change runAt (copyStripe other toastBase info >>= fun _ =>
        infos.forM (copyStripe other toastBase)) ws =
        (outcome, ws') at h
      rw [List.length_cons]
      rcases bind_cases h with ⟨e, hcopy, rfl⟩ | ⟨⟨⟩, w₁, hcopy, h⟩
      · obtain ⟨sink, log, rfl⟩ := copyStripe_failed hcopy
        exact ⟨Nat.le_add_right _ _, fun hok => nomatch hok⟩
      · obtain ⟨hle, hall⟩ := ih h
        have hone : w₁.writer.stripes.length = ws.writer.stripes.length + 1 := by
          obtain ⟨theirs, stripe, w₂, -, -, hput, rfl⟩ := copyStripe_ok hcopy
          obtain ⟨file, sink, log, -, rfl⟩ := putData_ok hput
          exact List.length_append
        exact ⟨by omega, fun hok => by have := hall hok; omega⟩

/-- **What comes over** ends with the rows that the other writer kept. -/
theorem adopt_leftover (h : runAt (adopt other) ws = (outcome, ws'))
    (hsound : ws.writer.Sound ws.archive.store) (hother : other.Directory) :
    Leftover other ws ws' := by
  unfold adopt at h
  have h := writer_ok h
  rcases bind_cases h with ⟨e, hcopy, -⟩ | ⟨⟨⟩, w₁, hcopy, h⟩
  · rw [copyToast_failed hcopy]
    exact .none (List.drop_eq_nil_of_le (Nat.le_add_right _ _))
  obtain ⟨hproceeds, hroom⟩ := copyToast_proceeds hcopy hsound hother
  have hsame : w₁.writer.stripes = ws.writer.stripes := by
    rcases copyToast_ok hcopy with ⟨-, rfl⟩ | ⟨_, _, _, -, -, -, -, rfl⟩
    · rfl
    · rfl
  rcases bind_cases h with ⟨e, hstripes, -⟩ | ⟨⟨⟩, w₂, hstripes, h⟩
  · exact .none (List.drop_eq_nil_of_le (hsame ▸ (copyStripes_listed hstripes).1))
  -- all stripes of the other writer are listed, so what comes next is of its rows
  have hcopied : w₂.writer.stripes.length = ws.writer.stripes.length + other.stripes.length :=
    hsame ▸ (copyStripes_listed hstripes).2 rfl
  have hproceeds' := copyStripes_proceeds hstripes hproceeds.sound (hroom rfl)
  have hnone : ws'.writer.stripes = w₂.writer.stripes → Leftover other ws ws' := fun hkept =>
    .none (List.drop_eq_nil_of_le (Nat.le_of_eq (hkept ▸ hcopied)))
  cases outcome with
  | error e =>
      rcases takeRows_failed h with rfl | hput
      · exact hnone rfl
      · obtain ⟨sink, hwriter⟩ := putStripe_unlisted hput
        exact hnone (hwriter ▸ rfl)
  | ok u =>
      rcases takeRows_ok h with ⟨-, rfl⟩ | ⟨after, -, hput⟩
      · exact hnone rfl
      · obtain ⟨file, info, hfile, hlisted, hwritten⟩ := putStripe_written hput hproceeds'.sound
        refine .taken (hproceeds.file file (hproceeds'.file file hfile)) ?_ hwritten
        rw [hlisted, ← hcopied, List.drop_left]

omit [Library] in
/-- **What follows** in a merge changes only the statistics of the writer. -/
theorem merged_left
    (h : runAt (takeStatistics other >>= fun _ => deleteFiles other) ws = (outcome, ws')) :
    ∃ summaryStatistics fileStatistics tuples,
      ws'.writer = { ws.writer with summaryStatistics, fileStatistics, tuples } := by
  have hstatistics : ∀ {taken : Except Fault Unit} {w : Workspace},
    runAt (takeStatistics other) ws = (taken, w) →
      ∃ summaryStatistics fileStatistics tuples,
        w.writer = { ws.writer with summaryStatistics, fileStatistics, tuples } := by
    intro taken w h
    unfold takeStatistics at h
    have h := writer_ok h
    rcases lift_cases h with ⟨e, -, -, rfl⟩ | ⟨summaryStatistics, -, h⟩
    · exact ⟨_, _, _, rfl⟩
    have h := setWriter_ok h
    rcases lift_cases h with ⟨e, -, -, rfl⟩ | ⟨fileStatistics, -, h⟩
    · exact ⟨_, _, _, rfl⟩
    · cases h
      exact ⟨_, _, _, rfl⟩
  rcases bind_cases h with ⟨e, htaken, -⟩ | ⟨⟨⟩, w₁, htaken, h⟩
  · exact hstatistics htaken
  · obtain ⟨store, rfl⟩ := deleteFiles_store h
    have hwriter := hstatistics htaken
    exact hwriter

omit [Library] in
/-- What is left over stays so while nothing is listed. -/
theorem Leftover.proceed (h : Leftover other ws ws₁) (hproceeds : Proceeds ws₁ ws')
    (hstripes : ws'.writer.stripes = ws₁.writer.stripes) : Leftover other ws ws' := by
  cases h with
  | none listed => exact .none (hstripes.symm ▸ listed)
  | taken home listed written =>
    exact .taken home (hstripes.symm ▸ listed) (written.proceed hproceeds)

/-- **The rest of a merge** leaves the columns of the writer as they are, and brings over the rows
that the other writer kept. -/
theorem merge_leftover {begun : Except Fault Unit}
    (hbegin : runAt (commence other) ws = (begun, ws₁))
    (h : runAt (merge other) ws = (outcome, ws')) (hsound : ws.writer.Sound ws.archive.store)
    (hother : other.Directory) :
    Proceeds ws₁ ws' ∧ Continues ws₁.writer ws'.writer ∧ Leftover other ws₁ ws' := by
  have hsound₁ := (commence_safe other hbegin hsound).sound
  rw [merge_commence] at h
  rcases bind_cases h with ⟨e, hfailed, -⟩ | ⟨⟨⟩, w₁, hdone, h⟩
  · cases hbegin.symm.trans hfailed
    exact ⟨hsound₁.rest, (still_refl _).toContinues,
      .none (List.drop_eq_nil_of_le (Nat.le_add_right _ _))⟩
  cases hbegin.symm.trans hdone
  -- wherever the copies break off
  have hadopted : ∀ {adopted : Except Fault Unit} {w₂ : Workspace}, runAt (adopt other) ws₁ =
    (adopted, w₂) →
      Proceeds ws₁ w₂ ∧ Continues ws₁.writer w₂.writer ∧ Leftover other ws₁ w₂ := by
    intro adopted w₂ hadopt
    have hproceeds := adopt_safe hother hadopt hsound₁
    obtain ⟨offset, toastOffset, stripes, sink, hwriter⟩ := (adopt_lays other hadopt).writer
    refine ⟨hproceeds, continues_of_eq ?_ hproceeds.file ?_, adopt_leftover hadopt hsound₁ hother⟩
    all_goals rw [hwriter]
  rcases bind_cases h with ⟨e, hadopt, -⟩ | ⟨⟨⟩, w₂, hadopt, h⟩
  · exact hadopted hadopt
  obtain ⟨hproceeds, hcontinues, hleftover⟩ := hadopted hadopt
  have hproceeds' : Proceeds w₂ ws' :=
    ((takeStatistics_safe other).bind fun _ => deleteFiles_safe other) h hproceeds.sound
  obtain ⟨_, _, _, hwriter⟩ := merged_left h
  refine ⟨hproceeds.trans hproceeds', hcontinues.trans (continues_of_eq ?_ hproceeds'.file ?_),
    hleftover.proceed hproceeds' ?_⟩
  all_goals rw [hwriter]

end Writer

end ColumnFile
