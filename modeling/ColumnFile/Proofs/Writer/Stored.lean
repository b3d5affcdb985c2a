import ColumnFile.Proofs.Reader.Stripe
import ColumnFile.Proofs.Statistics.Collector
import ColumnFile.Proofs.Writer.Failed
import ColumnFile.Proofs.Writer.Ledger

/-! # The stripes of a writer are in its files

What a writer has written: its file is as long as it says, and each entry of its directory describes
octets that are there. Only the files of the writer are changed by what it puts. A stripe that is
refused changes nothing of this: its values out of line may be in their file already, behind those
of the stripes, where the next ones are written over them.

* **`StripeInformation.Placed`** — an entry whose stripe and values are in files.
* **`Writer.Stored`** — the files of a writer and its directory.
* **`Writer.Stored.growToast`**, **`Writer.Stored.addStripe`** — the two ways in which files grow.
* **`Writer.putStripe_stored`**, **`Writer.putStripe_refused`** — columns that were put as a stripe,
  or were refused. -/

namespace ColumnFile

variable [Library]

/-! ## (1) Entries -/

/-- **An entry is placed**: the stripe and the values that it describes are in files, and its
statistics are those of a batch. -/
def StripeInformation.Placed (info : StripeInformation) (store : Store) (file : FileId)
    (toastFile : Option FileId) (schema : List ColumnSpec) (format : StorageFormat) (b : Batch) :
    Prop :=
  ∃ stripe values, info.Describes schema format stripe values b.rows ∧
    StatisticsDescribe info.statistics schema (b.besides ++ b.rows) ∧
    (store.get file).slice? info.offset stripe.length = some stripe ∧
    (values ≠ [] → ∃ t, toastFile = some t ∧
      (store.get t).slice? info.toastOffset values.length = some values)

/-- **An entry stays placed** when its file grows, and the values out of line stay up to a place
behind its own. -/
theorem StripeInformation.Placed.grow {info : StripeInformation} {store store' : Store}
    {file : FileId} {toastFile : Option FileId} {schema : List ColumnSpec} {format : StorageFormat}
    {b : Batch} (h : info.Placed store file toastFile schema format b) {more : Bytes}
    (hfile : store'.get file = store.get file ++ more) {size : Nat}
    (hwithin : info.toastOffset + info.toastLength ≤ size)
    (htoast : ∀ t, toastFile = some t → (store'.get t).take size = (store.get t).take size) :
    info.Placed store' file toastFile schema format b := by
  obtain ⟨stripe, out, hd, hstatistics, hstripe, hout⟩ := h
  refine ⟨stripe, out, hd, hstatistics, ?_, ?_⟩
  · rw [hfile]
    exact Bytes.slice?_append_left hstripe more
  · intro hne
    obtain ⟨t, ht, hslice⟩ := hout hne
    rw [← hd.toastLength] at hwithin
    exact ⟨t, ht, Bytes.slice?_of_take (htoast t ht) hwithin hslice⟩

/-- **An entry stays placed** when its files stay. -/
theorem StripeInformation.Placed.frame {info : StripeInformation} {store store' : Store}
    {file : FileId} {toastFile : Option FileId} {schema : List ColumnSpec} {format : StorageFormat}
    {b : Batch} (h : info.Placed store file toastFile schema format b)
    (hfile : store'.get file = store.get file)
    (htoast : ∀ t, toastFile = some t → store'.get t = store.get t) :
    info.Placed store' file toastFile schema format b := by
  have hself : store'.get file = store.get file ++ [] := by rw [hfile, List.append_nil]
  exact h.grow hself (Nat.le_refl _) fun t ht => by rw [htoast t ht]

namespace Writer

open Writing

variable {w w' : Writer} {store store' : Store} {batches : List Batch} {b : Batch}
  {stripe values : Bytes} {f : FileId}

/-! ## (2) Files -/

/-- The **files of a writer**. -/
def Owns (w : Writer) (file : FileId) : Prop := w.file = some file ∨ w.toastFile = some file

/-- **What a writer has written**: its directory lists stripes that hold batches, and its file is as
long as it says. The file of values out of line has those of the stripes; behind them may be what is
left of a stripe that was refused. A writer without such a file has none. -/
structure Stored (w : Writer) (store : Store) (batches : List Batch) : Prop where
  foreign : store.foreign = false
  file : ∃ f, w.file = some f ∧ f < store.contents.length ∧ (store.get f).length = w.offset ∧
    w.toastFile ≠ some f ∧
    List.Forall₂ (fun info b => info.Placed store f w.toastFile w.options.schema w.options.format b)
      w.stripes batches
  toast : ∀ t, w.toastFile = some t → t < store.contents.length ∧
    w.toastOffset ≤ (store.get t).length
  noToast : w.toastFile = none → w.toastOffset = 0
  within : ∀ info ∈ w.stripes, info.toastOffset + info.toastLength ≤ w.toastOffset

/-- What was written does not depend on the rows that are kept. -/
theorem Stored.congr (h : w.Stored store batches) (hoptions : w'.options = w.options)
    (hfile : w'.file = w.file) (htoastFile : w'.toastFile = w.toastFile)
    (hoffset : w'.offset = w.offset) (htoastOffset : w'.toastOffset = w.toastOffset)
    (hstripes : w'.stripes = w.stripes) :
    w'.Stored store batches := by
  constructor
  · exact h.foreign
  · rw [hoptions, hfile, htoastFile, hoffset, hstripes]
    exact h.file
  · rw [htoastFile, htoastOffset]
    exact h.toast
  · rw [htoastFile, htoastOffset]
    exact h.noToast
  · rw [hstripes, htoastOffset]
    exact h.within

/-- **What was written stays** when other files change. -/
theorem Stored.frame (h : w.Stored store batches) (hforeign : store'.foreign = false)
    (hcount : store.contents.length ≤ store'.contents.length)
    (hget : ∀ file, w.Owns file → store'.get file = store.get file) : w.Stored store' batches := by
  obtain ⟨f, hf, hlt, hlength, hother, hplaced⟩ := h.file
  refine ⟨hforeign, ⟨f, hf, Nat.lt_of_lt_of_le hlt hcount, ?_, hother, ?_⟩, ?_, h.noToast, h.within⟩
  · rw [hget f (.inl hf)]
    exact hlength
  · exact hplaced.imp fun info b hinfo =>
      hinfo.frame (hget f (.inl hf)) fun t ht => hget t (.inr ht)
  · intro t ht
    obtain ⟨hlt', hlength'⟩ := h.toast t ht
    rw [hget t (.inr ht)]
    exact ⟨Nat.lt_of_lt_of_le hlt' hcount, hlength'⟩

/-! ## (3) Growth -/

/-- **Values out of line are put** behind those so far, and no stripe is listed that needs them: it
does not matter whether they count. -/
theorem Stored.spillToast (h : w.Stored store batches) (hwrites : Store.Writes w.Owns store store')
    (hfile : ∀ f, w.file = some f → store'.get f = store.get f)
    (htoast : ∀ t, w.toastFile = some t →
      store'.get t = (store.get t).overwrite w.toastOffset values) :
    w.Stored store' batches := by
  obtain ⟨f, hf, hlt, hlength, hother, hplaced⟩ := h.file
  refine ⟨hwrites.foreign.trans h.foreign, ⟨f, hf, ?_, ?_, hother, ?_⟩, ?_, h.noToast, h.within⟩
  · rw [hwrites.count]
    exact hlt
  · rw [hfile f hf]
    exact hlength
  · have hself : store'.get f = store.get f ++ [] := by rw [hfile f hf, List.append_nil]
    refine (partners_mem hplaced).imp ?_
    rintro info b ⟨hinfo, -, hplaced⟩
    refine hplaced.grow hself (h.within info hinfo) ?_
    intro t ht
    rw [htoast t ht]
    exact Bytes.take_overwrite values (Nat.le_refl _) (h.toast t ht).2
  · intro t ht
    obtain ⟨hlt', hlength'⟩ := h.toast t ht
    have hend := Bytes.le_of_slice? (Bytes.slice?_overwrite values hlength')
    rw [hwrites.count, htoast t ht]
    exact ⟨hlt', by omega⟩

/-- **Values out of line that were put** are counted. -/
theorem Stored.growToast (h : w.Stored store batches) (hwrites : Store.Writes w.Owns store store')
    (hfile : ∀ f, w.file = some f → store'.get f = store.get f)
    (htoast : ∀ t, w.toastFile = some t →
      store'.get t = (store.get t).overwrite w.toastOffset values)
    (hnone : w.toastFile = none → values = []) :
    { w with toastOffset := w.toastOffset + values.length }.Stored store' batches := by
  have hspilled := h.spillToast hwrites hfile htoast
  refine ⟨hspilled.foreign, hspilled.file, ?_, ?_, ?_⟩
  · intro t ht
    obtain ⟨hlt, hlength⟩ := h.toast t ht
    rw [hwrites.count, htoast t ht]
    exact ⟨hlt, Bytes.le_of_slice? (Bytes.slice?_overwrite values hlength)⟩
  · intro ht
    show w.toastOffset + values.length = 0
    rw [h.noToast ht, hnone ht]
    rfl
  · intro info hinfo
    exact Nat.le_trans (h.within info hinfo) (Nat.le_add_right _ _)

/-- **A stripe is put** behind those so far and listed; its values out of line are there. -/
theorem Stored.addStripe {info : StripeInformation} (h : w.Stored store batches)
    (hwrites : Store.Writes w.Owns store store') (hf : w.file = some f)
    (hstripe : store'.get f = store.get f ++ stripe)
    (htoast : ∀ t, w.toastFile = some t → store'.get t = store.get t)
    (hd : info.Describes w.options.schema w.options.format stripe values b.rows)
    (hstatistics : StatisticsDescribe info.statistics w.options.schema (b.besides ++ b.rows))
    (hoffset : info.offset = w.offset)
    (hwithin : info.toastOffset + info.toastLength ≤ w.toastOffset)
    (hvalues : values ≠ [] → ∃ t, w.toastFile = some t ∧
      (store.get t).slice? info.toastOffset values.length = some values) :
    { w with stripes := w.stripes ++ [info], offset := w.offset + info.length }.Stored store'
      (batches ++ [b]) := by
  -- the directory goes on at the end of the file
  obtain ⟨f', hf', hlt, hlength, hother, hplaced⟩ := h.file
  cases hf.symm.trans hf'
  refine ⟨hwrites.foreign.trans h.foreign, ⟨f, hf, ?_, ?_, hother, ?_⟩, ?_, h.noToast, ?_⟩
  · rw [hwrites.count]
    exact hlt
  · show (store'.get f).length = w.offset + info.length
    rw [hstripe, List.length_append, hlength, hd.length]
  · refine List.rel_append (hplaced.imp fun info b hinfo => ?_) (.cons ?_ .nil)
    · exact hinfo.grow hstripe (Nat.le_refl _) fun t ht => by rw [htoast t ht]
    · refine ⟨stripe, values, hd, hstatistics, ?_, ?_⟩
      · rw [hoffset, ← hlength, hstripe]
        exact Bytes.slice?_append_right _ _
      · intro hne
        obtain ⟨t, ht, hslice⟩ := hvalues hne
        refine ⟨t, ht, ?_⟩
        rw [htoast t ht]
        exact hslice
  · intro t ht
    rw [hwrites.count, htoast t ht]
    exact h.toast t ht
  -- the old stripes end where they did, the new one inside of the values
  · intro info' hinfo
    rcases List.mem_append.mp hinfo with hinfo | hinfo
    · exact h.within info' hinfo
    · rw [List.mem_singleton.mp hinfo]
      exact hwithin

/-! ## (4) Steps -/

variable {ws ws' : Workspace}

/-- **Values out of line that were put** are behind those so far. -/
theorem putToast_stored (hput : runAt (putToast values) ws = (.ok (), ws'))
    (h : ws.writer.Stored ws.archive.store batches) :
    ∃ store, ws' = { ws with archive.store := store } ∧
      Store.Writes ws.writer.Owns ws.archive.store store ∧
      (∀ t, ws.writer.toastFile = some t →
        store.get t = (ws.archive.store.get t).overwrite ws.writer.toastOffset values) ∧
      (∀ f, ws.writer.file = some f → store.get f = ws.archive.store.get f) ∧
      (ws.writer.toastFile = none → values = []) := by
  rcases putToast_ok hput with ⟨rfl, rfl⟩ | ⟨t, hne, ht, rfl⟩
  · refine ⟨ws'.archive.store, rfl, Store.Writes.refl _ _, ?_, fun f _ => rfl, fun _ => rfl⟩
    intro t ht
    rw [Bytes.overwrite_nil (h.toast t ht).2]
  · obtain ⟨hlt, hlength⟩ := h.toast t ht
    obtain ⟨f, hf, -, -, hother, -⟩ := h.file
    refine ⟨_, rfl, Store.writes_write (.inr ht) _ _, ?_, ?_, ?_⟩
    · intro t' ht'
      cases ht.symm.trans ht'
      rw [Store.get_write_self h.foreign hlt]
    · intro f' hf'
      cases hf.symm.trans hf'
      refine Store.get_write_of_ne ?_ _ _
      rintro rfl
      exact hother ht
    · intro hnone
      rw [ht] at hnone
      cases hnone

/-- **The octets of a stripe that were put** are behind those so far. The writer may not yet count
values out of line that are there. -/
theorem putData_stored {toastOffset : Nat} (hput : runAt (putData stripe) ws = (.ok (), ws'))
    (h : { ws.writer with toastOffset }.Stored ws.archive.store batches) :
    ∃ f sink log store, ws' =
        { writer := { ws.writer with sink }, archive := { ws.archive with store, log } } ∧
      ws.writer.file = some f ∧ Store.Writes ws.writer.Owns ws.archive.store store ∧
      store.get f = ws.archive.store.get f ++ stripe ∧
      ∀ t, ws.writer.toastFile = some t → store.get t = ws.archive.store.get t := by
  obtain ⟨f, sink, log, hf, rfl⟩ := putData_ok hput
  obtain ⟨f', hf', hlt, hlength, hother, -⟩ := h.file
  cases hf.symm.trans hf'
  refine ⟨f, sink, log, _, rfl, hf, Store.writes_write (.inl hf) _ _, ?_, ?_⟩
  · rw [Store.get_write_self h.foreign hlt, ← hlength, Bytes.overwrite_length]
  · intro t ht
    refine Store.get_write_of_ne ?_ _ _
    rintro rfl
    exact hother ht

/-- **Columns that were put as a stripe** are stored: their rows are one more batch. Only the files
of the writer were changed, and of the writer only what it says of them. -/
theorem putStripe_stored (hlibrary : BlockLibrary.Restores) {columns columns' : ColumnSet}
    {statistics : List ColumnStatistics} {cells : Nat → List Cell}
    (hput : runAt (putStripe columns statistics) ws = (.ok columns', ws'))
    (h : ws.writer.Stored ws.archive.store batches)
    (hcells : ColumnSet.HoldsFrom ws.writer.options.format cells 0 columns.columns
      ws.writer.options.schema)
    (hshows : Shows ws.writer.options.schema cells b.rows) (hschema : ws.writer.options.schema ≠ [])
    (hstatistics : StatisticsDescribe statistics ws.writer.options.schema (b.besides ++ b.rows)) :
    (∃ image, columns.serialize = (.ok image, columns')) ∧
      ws'.writer.Stored ws'.archive.store (batches ++ [b]) ∧
      Store.Writes ws.writer.Owns ws.archive.store ws'.archive.store ∧
      ∃ offset toastOffset stripes sink, ws'.writer =
        { ws.writer with offset, toastOffset, stripes, sink } := by
  -- values are put first, then the stripe; both are where the entry says
  obtain ⟨image, w₁, w₂, hserialize, htoast, hdata, rfl⟩ := putStripe_ok hput
  obtain ⟨store₁, rfl, hwrites₁, hvalues, hfile, hnone⟩ := putToast_stored htoast h
  have h₁ := h.growToast hwrites₁ hfile hvalues hnone
  obtain ⟨f, sink, log, store₂, rfl, hf, hwrites₂, hstripe, hkept⟩ :=
    putData_stored hdata h₁
  refine ⟨⟨image, hserialize⟩, ?_, hwrites₁.trans hwrites₂, _, _, _, sink, rfl⟩
  have hd := columns.serialize_describes hlibrary hcells hshows hschema hserialize ws.writer.offset
    ws.writer.toastOffset hstatistics.width
  have h₂ := h₁.addStripe hwrites₂ hf hstripe hkept hd hstatistics rfl (Nat.le_refl _) (by
    intro hne
    cases ht : ws.writer.toastFile with
    | none => exact absurd (hnone ht) hne
    | some t =>
        refine ⟨t, rfl, ?_⟩
        rw [hvalues t ht]
        exact Bytes.slice?_overwrite _ (h.toast t ht).2)
  exact h₂.congr rfl rfl rfl rfl rfl rfl

/-- **A stripe that was refused**: what was written before is as it was. -/
theorem putStripe_refused {columns : ColumnSet} {statistics : List ColumnStatistics}
    {e : Fault} (h : runAt (putStripe columns statistics) ws = (.error e, ws'))
    (hstored : ws.writer.Stored ws.archive.store batches) :
    ws'.writer.Stored ws'.archive.store batches ∧
      Store.Writes ws.writer.Owns ws.archive.store ws'.archive.store ∧
      ∃ sink, ws'.writer = { ws.writer with sink } := by
  rcases putStripe_failed h with rfl | ⟨values, stripe, w₁, htoast, hdata⟩
  · exact ⟨hstored, Store.Writes.refl _ _, ws'.writer.sink, rfl⟩
  -- the values out of line were put, and do not count
  obtain ⟨store, rfl, hwrites, hvalues, hfile, -⟩ := putToast_stored htoast hstored
  obtain ⟨⟨sink, log, rfl⟩, -⟩ := putData_failed hdata
  have hspilled := hstored.spillToast hwrites hfile hvalues
  exact ⟨hspilled.congr rfl rfl rfl rfl rfl rfl, hwrites, sink, rfl⟩

end Writer

end ColumnFile
