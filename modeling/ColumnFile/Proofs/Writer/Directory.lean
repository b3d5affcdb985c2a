import ColumnFile.Proofs.Writer.Merge

/-! # The directory of a writer grows at its end

The stripes that a writer has listed follow each other from the start of its file, and their values
out of line follow each other in the file beside it. This is kept by every step of a writer, whether
it succeeds or fails, and wherever it fails; and no step changes an octet of what is listed. The
rows do not matter here: a row that only some columns took does no harm to the stripes before it.

* **`Writer.Directory`** — the directory is in order; **`Directory.add`** lists one more stripe.
* **`Writer.Sound`** — its files are at least as long as it says.
* **`Writer.Spares`**, **`Writer.Proceeds`** — what a step leaves alone and what it keeps.
* **`Writer.Safe`** — a step that proceeds, whatever comes of it; `Within.bind` chains them.
* **`Writer.putStripe_safe`**, **`Writer.adopt_safe`** — the two ways in which stripes are listed.
* **`Writer.write_safe`**, **`Writer.flush_safe`**, **`Writer.close_safe`**, **`Writer.merge_safe`**
  — the calls. -/

namespace ColumnFile

/-- **A file that was written** has the octets that were written. -/
theorem Store.le_length_write {s : Store} {file : FileId} {position : Nat} (hs : s.foreign = false)
    (hfile : file < s.contents.length) (hposition : position ≤ (s.get file).length) (bs : Bytes) :
    position + bs.length ≤ ((s.write file position bs).get file).length := by
  rw [get_write_self hs hfile]
  exact Bytes.le_of_slice? (Bytes.slice?_overwrite bs hposition)

/-- Octets that stay are still there. -/
theorem Bytes.le_length_of_take {bs bs' : Bytes} {n : Nat} (htake : bs'.take n = bs.take n)
    (hn : n ≤ bs.length) : n ≤ bs'.length := by
  have hlength := congrArg List.length htake
  rw [List.length_take, List.length_take] at hlength
  omega

/-- The out-of-line octets of all columns are those of each. -/
theorem ColumnSet.length_external (s : ColumnSet) : s.external.length = s.externalLengths.sum := by
  rw [external, List.length_flatMap]
  rfl

namespace Writer

open Writing

variable {α β : Type} {w w' : Writer} {store store' : Store} {ws ws' ws'' : Workspace}
  {info : StripeInformation}

/-! ## (1) Directories -/

/-- **The directory is in order**: the stripes lie one behind the other from the start of the file
up to where the next one begins, and none is without rows; their values out of line lie one behind
the other, perhaps with gaps, before those of the next one. -/
structure Directory (w : Writer) : Prop where
  starts : ∀ k info, w.stripes[k]? = some info →
    info.offset = ((w.stripes.take k).map StripeInformation.length).sum
  offset : w.offset = (w.stripes.map StripeInformation.length).sum
  rows : ∀ info ∈ w.stripes, 0 < info.rows
  toastApart : w.stripes.Pairwise fun info later =>
    info.toastOffset + info.toastLength ≤ later.toastOffset
  toastWithin : ∀ info ∈ w.stripes, info.toastOffset + info.toastLength ≤ w.toastOffset
  toastLengths : ∀ info ∈ w.stripes, info.toastLength = info.toastLengths.sum

/-- A writer without stripes has its directory in order. -/
theorem directory_nil (hstripes : w.stripes = []) (hoffset : w.offset = 0) : w.Directory := by
  constructor
  · intro k info hinfo
    rw [hstripes] at hinfo
    cases hinfo
  · rw [hoffset, hstripes]
    rfl
  all_goals
    rw [hstripes]
    first
      | exact List.Pairwise.nil
      | exact fun info hinfo => absurd hinfo List.not_mem_nil

/-- The directory depends on the stripes, and on where the next one begins. -/
theorem Directory.congr (h : w.Directory) (hstripes : w'.stripes = w.stripes)
    (hoffset : w'.offset = w.offset) (htoastOffset : w.toastOffset ≤ w'.toastOffset) :
    w'.Directory := by
  constructor
  · rw [hstripes]
    exact h.starts
  · rw [hstripes, hoffset]
    exact h.offset
  · rw [hstripes]
    exact h.rows
  · rw [hstripes]
    exact h.toastApart
  · rw [hstripes]
    exact fun info hinfo => Nat.le_trans (h.toastWithin info hinfo) htoastOffset
  · rw [hstripes]
    exact h.toastLengths

/-- **A stripe is listed** where the stripes so far end; its values out of line are behind
theirs. -/
theorem Directory.add (h : w.Directory) (hstripes : w'.stripes = w.stripes ++ [info])
    (hoffset : w'.offset = w.offset + info.length) (htoastOffset : w.toastOffset ≤ w'.toastOffset)
    (hstart : info.offset = w.offset) (hrows : 0 < info.rows)
    (hbehind : ∀ old ∈ w.stripes, old.toastOffset + old.toastLength ≤ info.toastOffset)
    (hwithin : info.toastOffset + info.toastLength ≤ w'.toastOffset)
    (hlengths : info.toastLength = info.toastLengths.sum) : w'.Directory := by
  -- what holds of the old stripes and of the new one holds of all
  have hall : ∀ {P : StripeInformation → Prop}, (∀ old ∈ w.stripes, P old) → P info →
      ∀ entry ∈ w'.stripes, P entry := by
    intro P hold hnew entry hentry
    rw [hstripes] at hentry
    rcases List.mem_append.mp hentry with hentry | hentry
    · exact hold entry hentry
    · rw [List.mem_singleton.mp hentry]
      exact hnew
  constructor
  · intro k entry hentry
    rw [hstripes] at hentry ⊢
    rcases Nat.lt_or_ge k w.stripes.length with hk | hk
    · rw [List.getElem?_append_left hk] at hentry
      rw [List.take_append_of_le_length (Nat.le_of_lt hk)]
      exact h.starts k entry hentry
    · -- behind the stripes so far is only the new one
      rw [List.getElem?_append_right hk] at hentry
      obtain ⟨hlt, hentry⟩ := List.getElem?_eq_some_iff.mp hentry
      have hk : k = w.stripes.length := by
        rw [List.length_singleton] at hlt
        omega
      subst hk
      rw [List.getElem_singleton] at hentry
      rw [← hentry, hstart, List.take_left, h.offset]
  · rw [hoffset, hstripes, List.map_append, List.sum_append, h.offset]
    rfl
  · exact hall h.rows hrows
  · rw [hstripes, List.pairwise_append]
    refine ⟨h.toastApart, List.pairwise_singleton _ _, ?_⟩
    intro old hold entry hentry
    rw [List.mem_singleton.mp hentry]
    exact hbehind old hold
  · exact hall (fun old hold => Nat.le_trans (h.toastWithin old hold) htoastOffset) hwithin
  · exact hall h.toastLengths hlengths

/-- **The files of a writer are sound**: they are there, they are two, and they have what the
directory says. -/
structure Sound (w : Writer) (store : Store) : Prop extends Directory w where
  foreign : store.foreign = false
  differ : ∀ f, w.file = some f → w.toastFile ≠ some f
  file : ∀ f, w.file = some f → f < store.contents.length ∧ w.offset ≤ (store.get f).length
  toast : ∀ t, w.toastFile = some t → t < store.contents.length ∧
    w.toastOffset ≤ (store.get t).length

/-- The files of a sound writer are there. -/
theorem Sound.owns_lt (h : w.Sound store) {file : FileId} (howns : w.Owns file) :
    file < store.contents.length := by
  rcases howns with hfile | htoast
  · exact (h.file file hfile).1
  · exact (h.toast file htoast).1

/-- The files of a writer do not depend on the rows that it keeps. -/
theorem Sound.withColumns (h : w.Sound store) (columns : ColumnSet) :
    ({ w with columns } : Writer).Sound store :=
  ⟨h.toDirectory.congr rfl rfl (Nat.le_refl _), h.foreign, h.differ, h.file, h.toast⟩

/-! ## (2) What a step leaves alone -/

/-- **Octets that a writer leaves alone**: the first `n` of a file, unless it is one of its own and
it has written fewer. -/
def Leaves (w : Writer) (file : FileId) (n : Nat) : Prop :=
  (w.file = some file → n ≤ w.offset) ∧ (w.toastFile = some file → n ≤ w.toastOffset)

/-- A writer leaves the files of others alone. -/
theorem leaves_of_not_owns {file : FileId} (h : ¬ w.Owns file) (n : Nat) : w.Leaves file n :=
  ⟨fun hfile => absurd (.inl hfile) h, fun htoast => absurd (.inr htoast) h⟩

/-- **What a step leaves alone**: the writer keeps its files or lets go of them, it does not go back
in them, and the octets that it leaves alone stay. -/
structure Spares (ws ws' : Workspace) : Prop where
  foreign : ws'.archive.store.foreign = ws.archive.store.foreign
  count : ws'.archive.store.contents.length = ws.archive.store.contents.length
  file : ∀ f, ws'.writer.file = some f → ws.writer.file = some f
  toastFile : ∀ t, ws'.writer.toastFile = some t → ws.writer.toastFile = some t
  offset : ws.writer.offset ≤ ws'.writer.offset
  toastOffset : ws.writer.toastOffset ≤ ws'.writer.toastOffset
  kept : ∀ file n, n ≤ (ws.archive.store.get file).length → ws.writer.Leaves file n →
    (ws'.archive.store.get file).take n = (ws.archive.store.get file).take n

/-- What a writer leaves alone before a step, it leaves alone after it. -/
theorem Spares.leaves (h : Spares ws ws') {file : FileId} {n : Nat}
    (hleaves : ws.writer.Leaves file n) :
    ws'.writer.Leaves file n :=
  ⟨fun hfile => Nat.le_trans (hleaves.1 (h.file file hfile)) h.offset,
    fun htoast => Nat.le_trans (hleaves.2 (h.toastFile file htoast)) h.toastOffset⟩

/-- After a step a writer has no files that it did not have before. -/
theorem Spares.owns (h : Spares ws ws') {file : FileId} (howns : ws'.writer.Owns file) :
    ws.writer.Owns file :=
  howns.imp (h.file file) (h.toastFile file)

/-- **Steps** leave alone what each of them does. -/
theorem Spares.trans (h : Spares ws ws') (h' : Spares ws' ws'') : Spares ws ws'' := by
  constructor
  · rw [h'.foreign, h.foreign]
  · rw [h'.count, h.count]
  · exact fun f hf => h.file f (h'.file f hf)
  · exact fun t ht => h.toastFile t (h'.toastFile t ht)
  · exact Nat.le_trans h.offset h'.offset
  · exact Nat.le_trans h.toastOffset h'.toastOffset
  · intro file n hn hleaves
    have hkept := h.kept file n hn hleaves
    rw [h'.kept file n (Bytes.le_length_of_take hkept hn) (h.leaves hleaves), hkept]

/-- **A step proceeds**: it spares what was written, and the writer is sound behind it. -/
structure Proceeds (ws ws' : Workspace) : Prop extends Spares ws ws' where
  sound : ws'.writer.Sound ws'.archive.store

/-- **Steps** proceed one behind the other. -/
theorem Proceeds.trans (h : Proceeds ws ws') (h' : Proceeds ws' ws'') : Proceeds ws ws'' :=
  ⟨h.toSpares.trans h'.toSpares, h'.sound⟩

/-- **The directory stays**: nothing is listed, and of its files the writer may let go. -/
structure Stays (w w' : Writer) : Prop where
  file : ∀ f, w'.file = some f → w.file = some f
  toastFile : ∀ t, w'.toastFile = some t → w.toastFile = some t
  offset : w'.offset = w.offset
  toastOffset : w'.toastOffset = w.toastOffset
  stripes : w'.stripes = w.stripes

/-- A writer whose files and stripes are the same has the same directory. -/
theorem stays_of_eq (hfile : w'.file = w.file) (htoastFile : w'.toastFile = w.toastFile)
    (hoffset : w'.offset = w.offset) (htoastOffset : w'.toastOffset = w.toastOffset)
    (hstripes : w'.stripes = w.stripes) : Stays w w' :=
  ⟨fun _ hf => hfile.symm.trans hf, fun _ ht => htoastFile.symm.trans ht, hoffset, htoastOffset,
    hstripes⟩

/-- **A step without octets** proceeds: it may change paths, the log and what the writer keeps. -/
theorem Sound.stay (h : ws.writer.Sound ws.archive.store) (hstays : Stays ws.writer ws'.writer)
    (hforeign : ws'.archive.store.foreign = ws.archive.store.foreign)
    (hcontents : ws'.archive.store.contents = ws.archive.store.contents) : Proceeds ws ws' := by
  have hget : ∀ file, ws'.archive.store.get file = ws.archive.store.get file := by
    intro file
    rw [Store.get, Store.get, hcontents]
  refine ⟨⟨hforeign, congrArg List.length hcontents, hstays.file, hstays.toastFile,
    Nat.le_of_eq hstays.offset.symm, Nat.le_of_eq hstays.toastOffset.symm, ?_⟩,
    h.toDirectory.congr hstays.stripes hstays.offset (Nat.le_of_eq hstays.toastOffset.symm),
    hforeign.trans h.foreign, ?_, ?_, ?_⟩
  · intro file n _ _
    rw [hget]
  · intro f hf ht
    exact h.differ f (hstays.file f hf) (hstays.toastFile f ht)
  · intro f hf
    rw [hcontents, hstays.offset, hget]
    exact h.file f (hstays.file f hf)
  · intro t ht
    rw [hcontents, hstays.toastOffset, hget]
    exact h.toast t (hstays.toastFile t ht)

/-- A step that changes nothing proceeds. -/
theorem Sound.rest (h : ws.writer.Sound ws.archive.store) : Proceeds ws ws :=
  h.stay (stays_of_eq rfl rfl rfl rfl rfl) rfl rfl

/-- A step that only changes the sink and the log proceeds. -/
theorem Sound.logged (h : ws.writer.Sound ws.archive.store) (sink : Option LogSink)
    (log : List LogRecord) :
    Proceeds ws { writer := { ws.writer with sink }, archive := { ws.archive with log } } :=
  h.stay (stays_of_eq rfl rfl rfl rfl rfl) rfl rfl

/-- **Octets that are written** behind those of a file of the writer proceed. -/
theorem Sound.write (h : ws.writer.Sound ws.archive.store) {file : FileId} {position : Nat}
    (hplace : (ws.writer.file = some file ∧ position = ws.writer.offset) ∨
      (ws.writer.toastFile = some file ∧ position = ws.writer.toastOffset)) (bs : Bytes) :
    Proceeds ws { ws with archive.store := ws.archive.store.write file position bs } := by
  have hthere : file < ws.archive.store.contents.length ∧
      position ≤ (ws.archive.store.get file).length := by
    rcases hplace with ⟨hfile, rfl⟩ | ⟨htoast, rfl⟩
    · exact h.file file hfile
    · exact h.toast file htoast
  obtain ⟨hlt, hposition⟩ := hthere
  have hwrites : Store.Writes (fun _ => True) ws.archive.store
    (ws.archive.store.write file position bs) :=
    Store.writes_write trivial _ _
  have hkept : ∀ file' n, n ≤ (ws.archive.store.get file').length → ws.writer.Leaves file' n →
      ((ws.archive.store.write file position bs).get file').take n =
        (ws.archive.store.get file').take n := by
    intro file' n _ hleaves
    by_cases hsame : file' = file
    · subst hsame
      -- what is left alone ends before the place that is written
      have hn : n ≤ position := by
        rcases hplace with ⟨hfile, rfl⟩ | ⟨htoast, rfl⟩
        · exact hleaves.1 hfile
        · exact hleaves.2 htoast
      rw [Store.get_write_self h.foreign hlt, Bytes.take_overwrite bs hn hposition]
    · rw [Store.get_write_of_ne hsame]
  refine ⟨⟨hwrites.foreign, hwrites.count, fun _ hf => hf, fun _ ht => ht, Nat.le_refl _,
    Nat.le_refl _, hkept⟩, h.toDirectory, hwrites.foreign.trans h.foreign, h.differ, ?_, ?_⟩
  · intro f hf
    obtain ⟨hlt', hlength⟩ := h.file f hf
    have hleaves : ws.writer.Leaves f ws.writer.offset :=
      ⟨fun _ => Nat.le_refl _, fun ht => absurd ht (h.differ f hf)⟩
    exact ⟨hwrites.count.symm ▸ hlt', Bytes.le_length_of_take (hkept f _ hlength hleaves) hlength⟩
  · intro t ht
    obtain ⟨hlt', hlength⟩ := h.toast t ht
    have hleaves : ws.writer.Leaves t ws.writer.toastOffset :=
      ⟨fun hf => absurd ht (h.differ t hf), fun _ => Nat.le_refl _⟩
    exact ⟨hwrites.count.symm ▸ hlt', Bytes.le_length_of_take (hkept t _ hlength hleaves) hlength⟩

/-- **A writer that moves on** in its files, over octets that are there, proceeds if its directory
is in order then. -/
theorem Sound.advance (h : ws.writer.Sound ws.archive.store) (hdirectory : w'.Directory)
    (hfile : w'.file = ws.writer.file) (htoastFile : w'.toastFile = ws.writer.toastFile)
    (hoffset : ws.writer.offset ≤ w'.offset) (htoastOffset : ws.writer.toastOffset ≤ w'.toastOffset)
    (hlength : ∀ f, ws.writer.file = some f → w'.offset ≤ (ws.archive.store.get f).length)
    (htoastLength : ∀ t, ws.writer.toastFile = some t →
      w'.toastOffset ≤ (ws.archive.store.get t).length) :
    Proceeds ws { ws with writer := w' } := by
  refine ⟨⟨rfl, rfl, fun f hf => hfile.symm.trans hf, fun t ht => htoastFile.symm.trans ht, hoffset,
    htoastOffset, fun _ _ _ _ => rfl⟩, hdirectory, h.foreign, ?_, ?_, ?_⟩
  · intro f hf ht
    exact h.differ f (hfile.symm.trans hf) (htoastFile.symm.trans ht)
  · intro f hf
    have hf := hfile.symm.trans hf
    exact ⟨(h.file f hf).1, hlength f hf⟩
  · intro t ht
    have ht := htoastFile.symm.trans ht
    exact ⟨(h.toast t ht).1, htoastLength t ht⟩

/-! ## (3) Safe steps -/

/-- **A step onward** proceeds if it begins with a sound writer. -/
def Onward (ws ws' : Workspace) : Prop := ws.writer.Sound ws.archive.store → Proceeds ws ws'

/-- A writer goes onward when nothing changes. -/
instance : Std.Refl Onward := ⟨fun _ hsound => hsound.rest⟩

/-- A writer that goes onward goes on to do so. -/
instance : IsTrans Workspace Onward :=
  ⟨fun _ _ _ h h' hsound => (h hsound).trans (h' (h hsound).sound)⟩

/-- **A step is safe** if it proceeds from every sound writer, whatever comes of it. -/
def Safe (step : Writing α) : Prop := Within Onward step

/-- **A change of the writer** that leaves its directory alone is safe. -/
theorem safe_setWriter {change : Writer → Writer} (h : ∀ w, Stays w (change w)) :
    Safe (setWriter change) :=
  within_setWriter fun ws hsound => hsound.stay (h ws.writer) rfl rfl

/-! ## (4) What is put into files -/

/-- **Octets of a stripe** are put behind the stripes so far, or not at all. -/
theorem putData_safe (stripe : Bytes) : Safe (putData stripe) := by
  intro ws outcome ws' h hsound
  cases outcome with
  | error e =>
      obtain ⟨⟨sink, log, rfl⟩, -⟩ := putData_failed h
      exact hsound.logged sink log
  | ok u =>
      obtain ⟨file, sink, log, hfile, rfl⟩ := putData_ok h
      have hwritten := hsound.write (.inl ⟨hfile, rfl⟩) stripe
      exact hwritten.trans (hwritten.sound.logged sink log)

/-- **Values out of line** are put behind those of the stripes so far, or not at all. -/
theorem putToast_safe (values : Bytes) : Safe (putToast values) := by
  intro ws outcome ws' h hsound
  cases outcome with
  | error e =>
      obtain ⟨rfl, -⟩ := putToast_failed h
      exact hsound.rest
  | ok u =>
      rcases putToast_ok h with ⟨-, rfl⟩ | ⟨t, -, ht, rfl⟩
      · exact hsound.rest
      · exact hsound.write (.inr ⟨ht, rfl⟩) values

variable {stripe values : Bytes}

/-- **The octets that were put** are there; the file of values out of line is left alone. -/
theorem putData_there (h : runAt (putData stripe) ws = (.ok (), ws'))
    (hsound : ws.writer.Sound ws.archive.store) :
    (∀ f, ws'.writer.file = some f →
        ws.writer.offset + stripe.length ≤ (ws'.archive.store.get f).length) ∧
      (∀ t, ws'.writer.toastFile = some t → ws'.archive.store.get t = ws.archive.store.get t) ∧
      ∃ sink, ws'.writer = { ws.writer with sink } := by
  obtain ⟨file, sink, log, hfile, rfl⟩ := putData_ok h
  refine ⟨?_, ?_, sink, rfl⟩
  · intro f hf
    cases hfile.symm.trans hf
    obtain ⟨hlt, hposition⟩ := hsound.file file hfile
    exact Store.le_length_write hsound.foreign hlt hposition stripe
  · intro t ht
    refine Store.get_write_of_ne ?_ _ _
    rintro rfl
    exact hsound.differ t hfile ht

/-- **The values out of line that were put** are there. -/
theorem putToast_there (h : runAt (putToast values) ws = (.ok (), ws'))
    (hsound : ws.writer.Sound ws.archive.store) :
    ws'.writer = ws.writer ∧ ∀ t, ws.writer.toastFile = some t →
      ws.writer.toastOffset + values.length ≤ (ws'.archive.store.get t).length := by
  rcases putToast_ok h with ⟨rfl, rfl⟩ | ⟨t, -, ht, rfl⟩
  · exact ⟨rfl, fun t ht => (hsound.toast t ht).2⟩
  · refine ⟨rfl, ?_⟩
    intro t' ht'
    cases ht.symm.trans ht'
    obtain ⟨hlt, hposition⟩ := hsound.toast t ht
    exact Store.le_length_write hsound.foreign hlt hposition values

variable [Library]

/-- **Columns are put as a stripe** and listed, or they are refused. -/
theorem putStripe_safe {columns : ColumnSet} (hrows : 0 < columns.rows)
    (statistics : List ColumnStatistics) :
    Safe (putStripe columns statistics) := by
  intro ws outcome ws' h hsound
  cases outcome with
  | error e =>
      -- a stripe that could not be put leaves octets behind, but no entry
      rcases putStripe_failed h with rfl | ⟨values, stripe, w₁, htoast, hdata⟩
      · exact hsound.rest
      · have hproceeds := putToast_safe _ htoast hsound
        exact hproceeds.trans (putData_safe _ hdata hproceeds.sound)
  | ok encoded =>
      obtain ⟨image, w₁, w₂, hserialize, htoast, hdata, rfl⟩ := putStripe_ok h
      have hproceeds₁ := putToast_safe _ htoast hsound
      have hproceeds₂ := putData_safe _ hdata hproceeds₁.sound
      obtain ⟨hwriter₁, hvalues⟩ := putToast_there htoast hsound
      obtain ⟨hstripe, hleft, sink, hwriter₂⟩ := putData_there hdata hproceeds₁.sound
      rw [hwriter₁] at hwriter₂ hstripe
      have hproceeds := hproceeds₁.trans hproceeds₂
      -- one that was put is listed where it begins, and ends inside of the files
      refine hproceeds.trans
        (hproceeds.sound.advance ?_ rfl rfl (Nat.le_add_right _ _) (Nat.le_add_right _ _)
        ?_ ?_)
      · refine hproceeds.sound.toDirectory.add rfl rfl (Nat.le_add_right _ _) rfl ?_
          hproceeds.sound.toastWithin (Nat.le_refl _) (ColumnSet.length_external encoded)
        rw [← ColumnSet.rows_serialize hserialize] at hrows
        exact hrows
      · intro f hf
        have hlength := hstripe f hf
        rw [List.length_append] at hlength
        show w₂.writer.offset + (image.data.length + _) ≤ _
        rw [hwriter₂]
        exact hlength
      · intro t ht
        show w₂.writer.toastOffset + encoded.external.length ≤ _
        rw [hleft t ht]
        rw [hwriter₂] at ht ⊢
        exact hvalues t ht

/-! ## (5) Rows -/

/-- **A flush** is safe. -/
theorem flush_safe : Safe flush := by
  unfold flush
  refine within_writer.bind fun w => (within_lift _).bind fun _ => ?_
  by_cases hrows : 0 < w.columns.rows
  · rw [if_pos hrows]
    refine (within_lift _).bind fun fresh => ?_
    refine Within.bind (safe_setWriter fun _ => stays_of_eq rfl rfl rfl rfl rfl) fun _ => ?_
    refine (putStripe_safe hrows _).bind fun columns => (within_lift _).bind fun fresh' => ?_
    exact safe_setWriter fun _ => stays_of_eq rfl rfl rfl rfl rfl
  · rw [if_neg hrows]
    exact within_pure _

/-- **A row that is counted** puts nothing into files. -/
theorem count_safe (row : Row) : Safe (count row) := by
  have hsummary : Safe (countForSummary row) := by
    unfold countForSummary
    refine within_writer.bind fun w => ?_
    cases w.summaryStatistics with
    | none => exact within_pure _
    | some statistics =>
        exact (within_lift _).bind fun statistics' => safe_setWriter fun _ =>
          stays_of_eq rfl rfl rfl rfl rfl
  unfold count
  refine within_writer.bind fun w => (within_lift _).bind fun stripeStatistics => ?_
  refine Within.bind (safe_setWriter fun _ => stays_of_eq rfl rfl rfl rfl rfl) fun _ => ?_
  refine (within_lift _).bind fun fileStatistics => ?_
  refine Within.bind (safe_setWriter fun _ => stays_of_eq rfl rfl rfl rfl rfl) fun _ => ?_
  exact hsummary.bind fun _ => safe_setWriter fun _ => stays_of_eq rfl rfl rfl rfl rfl

/-- **A row that is written** is safe: however many columns took it, nothing of it is in files
before the flush. -/
theorem write_safe (row : Row) : Safe (write row) := by
  unfold write
  refine within_writer.bind fun w => (within_lift _).bind fun _ => ?_
  by_cases hwidth : row.length ≠ w.options.schema.length
  · rw [if_pos hwidth]
    exact within_throw _
  rw [if_neg hwidth]
  refine (within_lift _).bind fun values => ?_
  generalize appendValues w.options.toastThreshold w.columns values = result
  obtain ⟨outcome, columns⟩ := result
  refine Within.bind (safe_setWriter fun _ => stays_of_eq rfl rfl rfl rfl rfl) fun _ => ?_
  refine (within_lift _).bind fun _ => (count_safe row).bind fun _ => ?_
  by_cases hfull : w.options.groupLimit ≤ columns.rows
  · rw [if_pos hfull]
    exact flush_safe
  · rw [if_neg hfull]
    exact within_pure _

/-! ## (6) The end of a file -/

/-- **The end of a file** is written behind the stripes. -/
theorem Sound.ends (h : ws.writer.Sound ws.archive.store) (hends : Ends ws ws') :
    Proceeds ws ws' := by
  rcases hends with ⟨-, rfl⟩ | ⟨file, store, closed, summaries, hfile, rfl, hcontents, hforeign⟩
  · exact h.stay ⟨(fun _ hf => nomatch hf), fun _ ht => ht, rfl, rfl, rfl⟩ rfl rfl
  · have hwritten := h.write (.inl ⟨hfile, rfl⟩) (tail ws.writer.footer)
    refine hwritten.trans (hwritten.sound.stay ?_ hforeign hcontents)
    exact ⟨(fun _ hf => nomatch hf), (fun _ ht => nomatch ht), rfl, rfl, rfl⟩

/-- **A close** is safe, however far it comes. -/
theorem close_safe : Safe close := by
  intro ws outcome ws' h hsound
  rcases close_cases h with ⟨-, -, rfl⟩ | ⟨e, -, hflush⟩ | ⟨w₁, hflush, hends⟩
  · exact hsound.rest
  · exact flush_safe hflush hsound
  · have hproceeds := flush_safe hflush hsound
    exact hproceeds.trans (hproceeds.sound.ends hends)

/-! ## (7) Merges -/

variable {other : Writer} {toastBase : Nat} {infos : List StripeInformation}

omit [Library] in
/-- **There is room for stripes** of another writer that are copied: their values out of line are
there already, from a place on that is behind those of the stripes so far. -/
structure Room (w : Writer) (toastBase : Nat) (infos : List StripeInformation) : Prop where
  rows : ∀ info ∈ infos, 0 < info.rows
  lengths : ∀ info ∈ infos, info.toastLength = info.toastLengths.sum
  apart : infos.Pairwise fun info later => info.toastOffset + info.toastLength ≤ later.toastOffset
  behind : ∀ old ∈ w.stripes, ∀ info ∈ infos,
    old.toastOffset + old.toastLength ≤ toastBase + info.toastOffset
  within : ∀ info ∈ infos, toastBase + info.toastOffset + info.toastLength ≤ w.toastOffset

omit [Library] in
/-- **There is room for all stripes** of a writer behind those so far, once its values out of line
were copied. -/
theorem Directory.room (hours : w.Directory) (htheirs : other.Directory)
    (hstripes : w'.stripes = w.stripes)
    (htoastOffset : w'.toastOffset = w.toastOffset + other.toastOffset) :
    w'.Room w.toastOffset other.stripes := by
  refine ⟨htheirs.rows, htheirs.toastLengths, htheirs.toastApart, ?_, ?_⟩
  · rw [hstripes]
    exact fun old hold info _ => Nat.le_trans (hours.toastWithin old hold) (Nat.le_add_right _ _)
  · intro info hinfo
    have hwithin := htheirs.toastWithin info hinfo
    omega

omit [Library] in
/-- **There is room for the stripes that are left** when the first one was listed. -/
theorem Room.tail (h : w.Room toastBase (info :: infos)) (offset : Nat)
    (hstripes : w'.stripes =
      w.stripes ++ [{ info with offset, toastOffset := toastBase + info.toastOffset }])
    (htoastOffset : w'.toastOffset = w.toastOffset) : w'.Room toastBase infos := by
  obtain ⟨hfirst, hrest⟩ := List.pairwise_cons.mp h.apart
  refine ⟨fun later hlater => h.rows later (List.mem_cons_of_mem _ hlater),
    fun later hlater => h.lengths later (List.mem_cons_of_mem _ hlater), hrest, ?_, ?_⟩
  · intro old hold later hlater
    rw [hstripes] at hold
    rcases List.mem_append.mp hold with hold | hold
    · exact h.behind old hold later (List.mem_cons_of_mem _ hlater)
    · rw [List.mem_singleton.mp hold]
      have hapart := hfirst later hlater
      show toastBase + info.toastOffset + info.toastLength ≤ toastBase + later.toastOffset
      omega
  · rw [htoastOffset]
    exact fun later hlater => h.within later (List.mem_cons_of_mem _ hlater)

omit [Library] in
/-- **The values out of line are copied** behind those so far, and there is room for the stripes
then. -/
theorem copyToast_proceeds {outcome : Except Fault Unit}
    (h : runAt (copyToast other) ws = (outcome, ws')) (hsound : ws.writer.Sound ws.archive.store)
    (hother : other.Directory) :
    Proceeds ws ws' ∧ (outcome = .ok () → ws'.writer.Room ws.writer.toastOffset other.stripes) := by
  cases outcome with
  | error e =>
      obtain rfl := copyToast_failed h
      exact ⟨hsound.rest, fun hok => nomatch hok⟩
  | ok u =>
      rcases copyToast_ok h with ⟨hnone, rfl⟩ | ⟨theirs, ours, values, -, -, hours, hread, rfl⟩
      · exact ⟨hsound.rest, fun _ =>
          hsound.toDirectory.room hother rfl (by rw [hnone, Nat.add_zero])⟩
      · have hlength := Bytes.length_of_slice? ((Store.read_eq_ok hsound.foreign).mp hread)
        obtain ⟨hlt, hposition⟩ := hsound.toast ours hours
        have hwritten := hsound.write (.inr ⟨hours, rfl⟩) values
        refine ⟨hwritten.trans (hwritten.sound.advance
          (hsound.toDirectory.congr rfl rfl (Nat.le_add_right _ _)) rfl rfl (Nat.le_refl _)
          (Nat.le_add_right _ _) (fun f hf => (hwritten.sound.file f hf).2) ?_),
          fun _ => hsound.toDirectory.room hother rfl (by rw [← hlength])⟩
        intro t ht
        cases hours.symm.trans ht
        exact Store.le_length_write hsound.foreign hlt hposition values

omit [Library] in
/-- **A stripe is copied** and listed, if there is room for it, and then there is room for the
others. -/
theorem copyStripe_proceeds {outcome : Except Fault Unit}
    (h : runAt (copyStripe other toastBase info) ws = (outcome, ws'))
    (hsound : ws.writer.Sound ws.archive.store) (hroom : ws.writer.Room toastBase (info :: infos)) :
    Proceeds ws ws' ∧ (outcome = .ok () → ws'.writer.Room toastBase infos) := by
  cases outcome with
  -- a stripe that could not be copied is not listed
  | error e =>
      obtain ⟨sink, log, rfl⟩ := copyStripe_failed h
      exact ⟨hsound.logged sink log, fun hok => nomatch hok⟩
  | ok u =>
      obtain ⟨theirs, stripe, w₁, -, hread, hput, rfl⟩ := copyStripe_ok h
      have hlength : stripe.length = info.length :=
        Bytes.length_of_slice? ((Store.read_eq_ok hsound.foreign).mp hread)
      have hproceeds := putData_safe _ hput hsound
      obtain ⟨hstripe, -, sink, hwriter⟩ := putData_there hput hsound
      have hstripes : w₁.writer.stripes = ws.writer.stripes := by rw [hwriter]
      have htoastOffset : w₁.writer.toastOffset = ws.writer.toastOffset := by rw [hwriter]
      -- one that was copied is, behind the values that were there before
      refine ⟨hproceeds.trans
        (hproceeds.sound.advance ?_ rfl rfl (Nat.le_add_right _ _) (Nat.le_refl _) ?_
        fun t ht => (hproceeds.sound.toast t ht).2), fun _ =>
          hroom.tail w₁.writer.offset ?_ htoastOffset⟩
      · refine hproceeds.sound.toDirectory.add rfl ?_ (Nat.le_refl _) rfl
          (hroom.rows info List.mem_cons_self) ?_ ?_ (hroom.lengths info List.mem_cons_self)
        · show w₁.writer.offset + stripe.length = w₁.writer.offset + info.length
          rw [hlength]
        · rw [hstripes]
          exact fun old hold => hroom.behind old hold info List.mem_cons_self
        · show _ ≤ w₁.writer.toastOffset
          rw [htoastOffset]
          exact hroom.within info List.mem_cons_self
      · intro f hf
        show w₁.writer.offset + stripe.length ≤ _
        rw [hwriter]
        exact hstripe f hf
      · show w₁.writer.stripes ++ _ = _
        rw [hstripes]

omit [Library] in
/-- **Stripes are copied** one behind the other, up to the first that is refused. -/
theorem copyStripes_proceeds {outcome : Except Fault Unit}
    (h : runAt (infos.forM (copyStripe other toastBase)) ws = (outcome, ws'))
    (hsound : ws.writer.Sound ws.archive.store) (hroom : ws.writer.Room toastBase infos) :
    Proceeds ws ws' := by
  induction infos generalizing ws with
  | nil =>
      cases h
      exact hsound.rest
  | cons info infos ih =>
      change runAt (copyStripe other toastBase info >>= fun _ =>
        infos.forM (copyStripe other toastBase)) ws =
        (outcome, ws') at h
      rw [runAt_bind] at h
      generalize hcopy : runAt (copyStripe other toastBase info) ws = result at h
      obtain ⟨copied, w₁⟩ := result
      obtain ⟨hproceeds, hroom'⟩ := copyStripe_proceeds hcopy hsound hroom
      cases copied with
      | error e =>
          cases h
          exact hproceeds
      | ok u => exact hproceeds.trans (ih h hproceeds.sound (hroom' rfl))

/-- **The rows that another writer kept** are put as a stripe, if there are any. -/
theorem takeRows_safe (other : Writer) : Safe (takeRows other) := by
  unfold takeRows
  by_cases hrows : 0 < other.columns.rows
  · rw [if_pos hrows]
    exact (within_lift _).bind fun fresh => (putStripe_safe hrows _).bind fun columns =>
      within_pure _
  · rw [if_neg hrows]
    exact within_pure _

/-- **What comes over** from a writer whose directory is in order is listed in order. -/
theorem adopt_safe (hother : other.Directory) : Safe (adopt other) := by
  intro ws outcome ws' h hsound
  unfold adopt at h
  have h := writer_ok h
  rw [runAt_bind] at h
  generalize hcopy : runAt (copyToast other) ws = result at h
  obtain ⟨copied, w₁⟩ := result
  obtain ⟨hproceeds, hroom⟩ := copyToast_proceeds hcopy hsound hother
  cases copied with
  | error e =>
      cases h
      exact hproceeds
  | ok u =>
      dsimp only at h
      rw [runAt_bind] at h
      generalize hstripes : runAt (other.stripes.forM (copyStripe other ws.writer.toastOffset)) w₁ =
        result at h
      obtain ⟨copied, w₂⟩ := result
      have hproceeds := hproceeds.trans (copyStripes_proceeds hstripes hproceeds.sound (hroom rfl))
      cases copied with
      | error e =>
          cases h
          exact hproceeds
      | ok u => exact hproceeds.trans (takeRows_safe other h hproceeds.sound)

omit [Library] in
/-- **Statistics that are taken over** put nothing into files. -/
theorem takeStatistics_safe (other : Writer) : Safe (takeStatistics other) := by
  unfold takeStatistics
  refine within_writer.bind fun w => (within_lift _).bind fun summaryStatistics => ?_
  refine Within.bind (safe_setWriter fun _ => stays_of_eq rfl rfl rfl rfl rfl) fun _ => ?_
  exact (within_lift _).bind fun fileStatistics => safe_setWriter fun _ =>
    stays_of_eq rfl rfl rfl rfl rfl

omit [Library] in
/-- **Paths that are deleted** lose no octets. -/
theorem deleteFiles_safe (other : Writer) : Safe (deleteFiles other) := by
  intro ws outcome ws' h hsound
  cases outcome with
  | error e =>
      obtain rfl := deleteFiles_failed hsound.foreign h
      exact hsound.rest
  | ok u =>
      obtain ⟨store, rfl, hforeign, hcontents, -⟩ := deleteFiles_named h
      exact hsound.stay (stays_of_eq rfl rfl rfl rfl rfl) hforeign hcontents

/-- **A merge** of a writer whose directory is in order is safe, wherever it breaks off. -/
theorem merge_safe (hother : other.Directory) : Safe (merge other) := by
  rw [merge_eq]
  exact within_writer.bind fun w => (within_lift _).bind fun _ => flush_safe.bind
    fun _ => (adopt_safe hother).bind fun _ => (takeStatistics_safe other).bind
    fun _ => deleteFiles_safe other

end Writer

end ColumnFile
