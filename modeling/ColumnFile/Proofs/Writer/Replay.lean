import ColumnFile.Proofs.Writer.Journal

/-! # A log is replayed

Any number of writers share the files of one store, some of them keep a log, and the sink of each
accepts or refuses what it likes. Whatever they are asked for, and whether they do it or fail, the
records that were accepted from one of them, replayed in order, give the octets of its file up to
where its next stripe begins. The one exception is a writer whose close broke off once it had let go
of its file: it is not closed, so it takes more rows, and their stripes are accepted although they
cannot be written.

* **`Writer.Diary.journal`** — the journals that are noted of turns.
* **`Writer.Crew.Logged`** — every journal replays the file of its writer, which is no one else's.
* **`Writer.Reached.logged`** — this is so in every state that is reached.
* **`Writer.log_replays`** — what is replayed, and **`Writer.log_replays_torn`**, the exception. -/

namespace ColumnFile

/-- What was **added to the log** of an archive. -/
def Archive.added (archive archive' : Archive) : List LogRecord :=
  archive'.log.drop archive.log.length

/-- What was added to a log is what is behind it. -/
theorem Archive.added_eq {archive archive' : Archive} {more : List LogRecord}
    (h : archive'.log = archive.log ++ more) : archive.added archive' = more := by
  rw [added, h, List.drop_left]

namespace Writer

open Writing

variable [Library] {archive : Archive} {crew crew' : Crew} {journals : Nat → Journal} {i j : Nat}
  {w : Writer} {ws : Workspace}

/-! ## (1) Journals of a run -/

omit [Library] in
/-- **Journals** are noted: the journal of a writer begins with its file, and goes on with what is
added to the log while it is the writer's turn. -/
def Diary.journal : Diary Journal where
  blank := {}
  made _ file := { file }
  task before after journal := journal.extend (before.archive.added after.archive)
  merge _ before after ours theirs := (ours.extend (before.archive.added after.archive), theirs)

/-! ## (2) What journals keep -/

section

omit [Library]

/-- **A crew is logged**: the journal of every writer that keeps a log replays its file, which is no
one else's. -/
structure Crew.Logged (crew : Crew) (journals : Nat → Journal) : Prop where
  recorded : ∀ i w, crew.member i = some w → w.options.log = true →
    w.Recorded crew.archive.store (journals i)
  apart : ∀ i j w other, crew.member i = some w → w.options.log = true →
    crew.member j = some other → i ≠ j →
    ¬ other.Owns (journals i).file

/-- **A journal goes on** with its file. -/
theorem Journal.file_update {more : List LogRecord} (k : Nat) :
    (Function.update journals i ((journals i).extend more) k).file = (journals k).file := by
  by_cases hk : k = i
  · subst hk
    rw [Function.update_self]
    rfl
  · rw [Function.update_of_ne hk]

/-- **A writer whose turn is noted** leaves its crew logged, with what was added to the log in its
journal. -/
theorem Crew.Logged.proceed (h : crew.Logged journals) (hmember : crew.member i = some w)
    (hnoted : Noted { writer := w, archive := crew.archive } ws) :
    Crew.Logged { archive := ws.archive, member := Function.update crew.member i (some ws.writer) }
      (Function.update journals i ((journals i).extend (crew.archive.added ws.archive))) := by
  obtain ⟨more, hadded, hrecorded⟩ := hnoted.records
  rw [Archive.added_eq hadded]
  constructor
  · intro k other hother hlog
    rcases listed_of_join hother with ⟨rfl, rfl⟩ | ⟨hk, hother⟩
    · rw [Function.update_self]
      rw [hnoted.options] at hlog
      exact hrecorded _ (h.recorded k w hmember hlog)
    · -- the file of another journal is not written
      rw [Function.update_of_ne hk]
      exact (h.recorded k other hother hlog).congr (alike_of_eq rfl rfl rfl rfl rfl)
        (Nat.le_of_eq hnoted.count.symm)
          (hnoted.others _ (h.apart k i other w hother hlog hmember hk))
  · intro k l first second hfirst hlog hsecond hkl
    rw [Journal.file_update]
    -- the writer has no files that it did not have
    have hold : ∃ first', crew.member k = some first' ∧ first'.options.log = true := by
      rcases listed_of_join hfirst with ⟨rfl, rfl⟩ | ⟨-, hfirst⟩
      · exact ⟨w, hmember, hnoted.options ▸ hlog⟩
      · exact ⟨first, hfirst, hlog⟩
    obtain ⟨first', hfirst', hlog'⟩ := hold
    rcases listed_of_join hsecond with ⟨rfl, rfl⟩ | ⟨-, hsecond⟩
    · exact fun howns => h.apart k l first' w hfirst' hlog' hmember hkl (hnoted.owns _ howns)
    · exact h.apart k l first' second hfirst' hlog' hsecond hkl

/-- **A crew without one of its writers** is logged. -/
theorem Crew.Logged.drop (h : crew.Logged journals) (i : Nat) :
    Crew.Logged { crew with member := Function.update crew.member i none } journals := by
  constructor
  · intro k other hother
    exact h.recorded k other (listed_of_drop hother).2
  · intro k l first second hfirst hlog hsecond
    exact h.apart k l first second (listed_of_drop hfirst).2 hlog (listed_of_drop hsecond).2

/-- **Files that are added** leave a crew logged. -/
theorem Crew.Logged.grow {store : Store} (h : crew.Logged journals)
    (hgrows : Store.Grows crew.archive.store store) :
    Crew.Logged { crew with archive.store := store } journals :=
  ⟨fun k other hother hlog => (h.recorded k other hother hlog).congr
    (alike_of_eq rfl rfl rfl rfl rfl) hgrows.count (hgrows.old _), h.apart⟩

/-- **A writer that gets another sink** leaves its crew logged. -/
theorem Crew.Logged.equip (h : crew.Logged journals) (hmember : crew.member i = some w)
    (sink : Option LogSink) (summary : Option Collector) :
    Crew.Logged
      { crew with
        member := Function.update crew.member i
          (some { w with sink, summaryStatistics := summary }) }
      journals := by
  have hold : ∀ {k : Nat} {other : Writer},
      Function.update crew.member i (some { w with sink, summaryStatistics := summary }) k =
        some other →
      ∃ other', crew.member k = some other' ∧ Alike other' other := by
    intro k other hother
    rcases listed_of_join hother with ⟨rfl, rfl⟩ | ⟨-, hother⟩
    · exact ⟨w, hmember, alike_of_eq rfl rfl rfl rfl rfl⟩
    · exact ⟨other, hother, alike_of_eq rfl rfl rfl rfl rfl⟩
  constructor
  · intro k other hother hlog
    obtain ⟨other', hother', halike⟩ := hold hother
    rw [halike.options] at hlog
    exact (h.recorded k other' hother' hlog).congr halike (Nat.le_refl _) rfl
  · intro k l first second hfirst hlog hsecond hkl howns
    obtain ⟨first', hfirst', halike⟩ := hold hfirst
    obtain ⟨second', hsecond', halike'⟩ := hold hsecond
    rw [halike.options] at hlog
    exact h.apart k l first' second' hfirst' hlog hsecond' hkl (halike'.owns howns)

end

/-- **The journal of a new writer** has nothing to replay. -/
theorem recorded_of_create {options : WriterOptions} {store store' : Store} {file : FileId}
    (hstore : store.foreign = false) (h : create options store = (.ok w, store'))
    (hfile : w.file = some file) (hlog : w.options.log = true) : w.Recorded store' { file } := by
  obtain ⟨f, hf, hlt, hlength, hdiffer, -⟩ := (create_stored hstore h).1.file
  cases hfile.symm.trans hf
  obtain ⟨_, _, _, _, -, -, -, -, hw⟩ := create_ok h
  have hoffset : w.offset = 0 := congrArg Writer.offset hw
  refine ⟨hlog, hlt, ?_, hdiffer, ⟨[], [], rfl, ⟨trivial, ?_, Nat.le_of_eq hlength.symm⟩,
    fun hsome => absurd rfl hsome, fun _ hr => nomatch hr⟩, fun _ hr => nomatch hr⟩
  · intro f' hf'
    cases hfile.symm.trans hf'
    exact ⟨rfl, hlength⟩
  · rw [hoffset]
    rfl

/-- **A new writer** joins a crew: its files are new, so those of the other journals are not among
them. -/
theorem Crew.Logged.join {options : WriterOptions} {store : Store} {file : FileId}
    (h : crew.Logged journals) (hsteady : crew.Steady)
    (hcreate : create options crew.archive.store = (.ok w, store)) (hfile : w.file = some file) :
    Crew.Logged { archive := { crew.archive with store },
                  member := Function.update crew.member i (some w) }
      (Function.update journals i { file }) := by
  obtain ⟨-, -, hbegins⟩ := create_stored hsteady.own hcreate
  constructor
  · intro k other hother hlog
    rcases listed_of_join hother with ⟨rfl, rfl⟩ | ⟨hk, hother⟩
    · rw [Function.update_self]
      exact recorded_of_create hsteady.own hcreate hfile hlog
    · rw [Function.update_of_ne hk]
      exact (h.recorded k other hother hlog).congr (alike_of_eq rfl rfl rfl rfl rfl)
        hbegins.toGrows.count
        (hbegins.toGrows.old _)
  · intro k l first second hfirst hlog hsecond hkl howns
    rcases listed_of_join hfirst with ⟨rfl, -⟩ | ⟨hk, hold⟩
    · rw [Function.update_self] at howns
      rcases listed_of_join hsecond with ⟨rfl, -⟩ | ⟨-, hold'⟩
      · exact hkl rfl
      · exact Nat.not_le_of_lt ((hsteady.sound l second hold').owns_lt howns)
          (hbegins.new file (.inl hfile))
    · rw [Function.update_of_ne hk] at howns
      rcases listed_of_join hsecond with ⟨-, rfl⟩ | ⟨-, hold'⟩
      · exact Nat.not_le_of_lt (h.recorded k first hold hlog).there (hbegins.new _ howns)
      · exact h.apart k l first second hold hlog hold' hkl howns

/-! ## (3) Runs -/

/-- **Every state that is reached** is logged. -/
theorem Reached.logged (hown : archive.store.foreign = false)
    (h : Reached Diary.journal archive crew journals) :
    crew.Logged journals := by
  induction h with
  | start => exact ⟨(fun _ _ hmember => nomatch hmember), fun _ _ _ _ hmember => nomatch hmember⟩
  | create i before step home ih => exact ih.join (before.steady hown) step home
  | unmade before step ih => exact ih.grow (create_failed (before.steady hown).own step)
  | equip sink summary _ member ih => exact ih.equip member sink summary
  | task task before member step ih =>
    exact ih.proceed member (task.noted step (before.steady hown).own)
  | @merge _ journals i j a b _ _ _ _ before first second two step noted ih =>
      -- the journal of the writer that is gone stays as it is
      cases noted
      rw [Function.update_eq_self]
      exact (ih.drop j).proceed (listed_beside first two)
        (merge_noted step (before.steady hown).own)
  | drop i _ ih => exact ih.drop i

/-! ## (4) Replays -/

section

omit [Library]

variable {store : Store} {file : FileId} {kept : List LogRecord} {journal : Journal}
  {stripe : Bytes}
  {before after : Workspace} {outcome : Except Fault Unit}

/-- **The records that a file kept** are replayed to its octets. -/
theorem Kept.replay (h : w.Kept store file kept) :
    LogRecord.replay kept = (store.get file).take w.offset :=
  h.abut.replay.trans h.octets

/-- **Every octet of a stripe** was accepted at its place. -/
theorem Recorded.octet (h : w.Recorded store journal) {p : Nat} (hp : p < w.offset) :
    ∃ r ∈ journal.records, r.fileName = w.options.fileName ∧ r.offset ≤ p ∧
    p < r.offset + r.stripe.length ∧
      r.stripe[p - r.offset]? = (store.get journal.file)[p]? := by
  obtain ⟨kept, strays, hrecords, hkept, -⟩ := h.kept
  have hlength : (kept.flatMap LogRecord.stripe).length = w.offset := by
    rw [hkept.octets, List.length_take, Nat.min_eq_left hkept.within]
  obtain ⟨r, hr, hle, hlt, hoctet⟩ := hkept.abut.octet (hlength.symm ▸ hp)
  rw [Nat.zero_add] at hle hlt hoctet
  have hmem : r ∈ journal.records := hrecords ▸ List.mem_append_left _ hr
  refine ⟨r, hmem, h.names r hmem, hle, hlt, ?_⟩
  rw [hoctet, hkept.octets, List.getElem?_take_of_lt hp]

/-- **A stripe that is written** was accepted first, when nothing of it was in a file. -/
theorem putData_accepted (hlog : before.writer.options.log = true)
    (h : runAt (putData stripe) before = (outcome, after))
    (hwritten : after.archive.store ≠ before.archive.store) :
    ∃ accepted, runAt (logStripe stripe) before = (.ok (), accepted) ∧
      accepted.archive.store = before.archive.store ∧ accepted.archive.log = before.archive.log ++
        [{ fileName := before.writer.options.fileName, offset := before.writer.offset,
           stripe }] := by
  rcases putData_cases h with ⟨-, sink, -, rfl⟩ | ⟨sink, accepted, haccepts, rfl, -⟩
  · exact absurd rfl hwritten
  · refine ⟨_, haccepts, rfl, ?_⟩
    rw [entry, if_pos hlog]

end

/-- **A log is replayed.** Any number of writers share the files of one store of one's own, and
whatever they are asked for, in any order, they do it or fail. In every state that they reach, the
records that were accepted from a writer that keeps a log are those that its file kept, and perhaps
more: the first, replayed in order, give the octets of its file up to where its next stripe begins.
There are no more, and the whole log gives just these octets, while the writer has its file, and
once it is closed; a writer that let go of its file and is not closed may have more, all of them at
the end. Every octet of a stripe was accepted at its place, for this file; and octets are never
written before they are accepted. -/
theorem log_replays (hown : archive.store.foreign = false)
    (hreached : Reached Diary.journal archive crew journals) (hmember : crew.member i = some w)
    (hlog : w.options.log = true) :
    (∀ f, w.file = some f → f = (journals i).file) ∧
      (w.file ≠ none ∨ w.closed = true →
        LogRecord.replay (journals i).records =
          (crew.archive.store.get (journals i).file).take w.offset) ∧
      (∃ kept strays, (journals i).records = kept ++ strays ∧
        LogRecord.replay kept = (crew.archive.store.get (journals i).file).take w.offset ∧
        (strays ≠ [] → w.file = none ∧ w.closed = false) ∧ ∀ r ∈ strays, r.offset = w.offset) ∧
      (∀ p < w.offset, ∃ r ∈ (journals i).records, r.fileName = w.options.fileName ∧
        r.offset ≤ p ∧ p < r.offset + r.stripe.length ∧
        r.stripe[p - r.offset]? = (crew.archive.store.get (journals i).file)[p]?) ∧
      ∀ (stripe : Bytes) (before after : Workspace) (outcome : Except Fault Unit),
        before.writer.options.log = true → runAt (putData stripe) before = (outcome, after) →
        after.archive.store ≠ before.archive.store →
        ∃ accepted, runAt (logStripe stripe) before = (.ok (), accepted) ∧
          accepted.archive.store = before.archive.store ∧
          accepted.archive.log = before.archive.log ++
            [{ fileName := before.writer.options.fileName, offset := before.writer.offset,
               stripe }] := by
  have hrecorded := (hreached.logged hown).recorded i w hmember hlog
  -- the journal tells all of it
  obtain ⟨kept, strays, hrecords, hkept, hstrays, hplaces⟩ := hrecorded.kept
  refine ⟨fun f hf => (hrecorded.home f hf).1, ?_,
    ⟨kept, strays, hrecords, hkept.replay, hstrays, hplaces⟩, fun p hp => hrecorded.octet hp,
    fun _ _ _ _ hlog h hwritten => putData_accepted hlog h hwritten⟩
  -- strays are there only while the writer has no file and is not closed
  intro hstate
  have hnone : strays = [] := by
    by_contra hsome
    obtain ⟨hfile, hopen⟩ := hstrays hsome
    rcases hstate with hthere | hclosed
    · exact hthere hfile
    · rw [hopen] at hclosed
      cases hclosed
  rw [hrecords, hnone, List.append_nil]
  exact hkept.replay

/-- A sink that refuses the call of a number, and accepts all others. -/
def refuses (number : Nat) : LogSink where
  refusal call := if call = number then some (.reported .io "wal refused") else none

omit [Library] in
/-- A merge breaks off, since the row that the other writer kept is refused; another stripe takes
the place of it. -/
theorem log_replays_refused :
    ∃ crew journals w, @Reached .verbatim _ Diary.journal {} crew journals ∧
    crew.member 0 = some w ∧
      w.options.log = true ∧ w.file ≠ none ∧ w.sink.map LogSink.calls = some 3 ∧
      crew.archive.log.length = 2 ∧
      LogRecord.replay (journals 0).records =
        (crew.archive.store.get (journals 0).file).take w.offset := by
  -- the calls are evaluated; that the log replays follows from the journal
  have hrun : ∃ a b store store' wa wb wm wc, create loggedColumn {} = (.ok a, store) ∧
      create { loggedColumn with fileName := "g" } store = (.ok b, store') ∧
      wa = runAt (@perform .verbatim [.write [.int32 1], .flush])
        { writer := { a with sink := some (refuses 1) }, archive := { store := store' } } ∧
        wa.1 = .ok () ∧
      wb = runAt (@perform .verbatim [.write [.int32 2]]) { writer := b, archive := wa.2.archive } ∧
      wb.1 = .ok () ∧
      wm = runAt (@merge .verbatim wb.2.writer) { writer := wa.2.writer, archive := wb.2.archive } ∧
      wm.1 = .error (.reported .io "wal refused") ∧
      wc = runAt (@perform .verbatim [.write [.int32 3], .flush]) wm.2 ∧ wc.1 = .ok () ∧
      wc.2.writer.options.log = true ∧ wc.2.writer.file ≠ none ∧
      wc.2.writer.sink.map LogSink.calls = some 3 ∧ wc.2.archive.log.length = 2 :=
    ⟨_, _, _, _, _, _, _, _, rfl, rfl, rfl, by decide +kernel, rfl, by decide +kernel, rfl,
      by decide +kernel, rfl, by decide +kernel, by decide +kernel, by decide +kernel,
      by decide +kernel, by decide +kernel⟩
  obtain ⟨a, b, store, store', wa, wb, wm, wc, ha, hb, hwa, hwa', hwb, hwb', hwm, hwm', hwc, hwc',
    hlog, hfile, hcalls, hlength⟩ := hrun
  have hmade : Relation.ReflTransGen (@Turn .verbatim) (.start {}) _ :=
    ((Relation.ReflTransGen.single (@Turn.create .verbatim (.start {}) _ _ _ 0 ha)).tail
      (@Turn.create .verbatim _ _ _ _ 1 hb)).tail
      (@Turn.equip .verbatim _ 0 a (some (refuses 1)) a.summaryStatistics rfl)
  have hfirst := hmade.trans (@turns_of_perform .verbatim _ _ 0 _ wa.2 rfl (runAt_eq hwa hwa'))
  have hsecond := hfirst.trans (@turns_of_perform .verbatim _ _ 1 b wb.2 rfl (runAt_eq hwb hwb'))
  have hmerged :=
    hsecond.tail (@Turn.merge .verbatim _ 0 1 _ _ _ _ rfl rfl (by decide) (runAt_eq hwm hwm'))
  have hafter :=
    hmerged.trans (@turns_of_perform .verbatim _ _ 0 wm.2.writer wc.2 rfl (runAt_eq hwc hwc'))
  obtain ⟨journals, hreached⟩ := @reached_of_turns .verbatim _ _ Diary.journal _ hafter
  obtain ⟨-, hreplay, -⟩ := @log_replays .verbatim {} _ _ 0 wc.2.writer rfl hreached rfl hlog
  exact ⟨_, journals, wc.2.writer, hreached, rfl, hlog, hfile, hcalls, hlength,
    hreplay (.inl hfile)⟩

omit [Library] in
/-- **A close may break off** once the writer has let go of its file: here the path of its file of
values was deleted by a merge. The writer takes a row then, and its stripe is accepted, although
there is no file to write it to; the log gives a stripe, and the file has none. -/
theorem log_replays_torn :
    ∃ crew journals w, @Reached .verbatim _ Diary.journal {} crew journals ∧
    crew.member 1 = some w ∧
      w.options.log = true ∧ w.closed = false ∧
      LogRecord.replay (journals 1).records ≠
        (crew.archive.store.get (journals 1).file).take w.offset := by
  -- `f` is free again when the writer is made that keeps a log, and `f.toast` is deleted twice
  have hrun : ∃ a c w store₁ store₂ store₃ wc wa wx wy wz,
      create { loggedColumn with fileName := "f.toast" } {} = (.ok a, store₁) ∧
      create loggedColumn store₁ = (.ok c, store₂) ∧
      wc = runAt (@merge .verbatim c) { writer := a, archive := { store := store₂ } } ∧
        wc.1 = .ok () ∧
      create { loggedColumn with toastThreshold := some 2 } wc.2.archive.store = (.ok w, store₃) ∧
      wa = runAt (@merge .verbatim wc.2.writer)
        { writer := { w with sink := some (refuses 1) },
          archive := { wc.2.archive with store := store₃ } } ∧
      wa.1 = .ok () ∧
      wx = runAt (@close .verbatim) wa.2 ∧ wx.1 = .error (.noSuchFile "f.toast") ∧
      wy = runAt (@write .verbatim [.int32 1]) wx.2 ∧ wy.1 = .ok () ∧
      wz = runAt (@flush .verbatim) wy.2 ∧ wz.1 = .error .noOpenFile ∧
      wz.2.writer.options.log = true ∧ wz.2.writer.closed = false ∧ wz.2.writer.offset = 0 ∧
      LogRecord.replay (Archive.added { wc.2.archive with store := store₃ } wa.2.archive ++
        wa.2.archive.added wx.2.archive ++ wx.2.archive.added wy.2.archive ++
        wy.2.archive.added wz.2.archive) ≠ [] :=
    ⟨_, _, _, _, _, _, _, _, _, _, _, rfl, rfl, rfl, by decide +kernel, rfl, rfl, by decide +kernel,
      rfl, by decide +kernel, rfl, by decide +kernel, rfl, by decide +kernel, by decide +kernel,
      by decide +kernel, by decide +kernel, by decide +kernel⟩
  obtain ⟨a, c, w, store₁, store₂, store₃, wc, wa, wx, wy, wz, ha, hc, hwc, hwc', hw, hwa, hwa',
    hwx, hwx', hwy, hwy', hwz, hwz', hlog, hopen, hoffset, htorn⟩ := hrun
  obtain ⟨file, hfile⟩ := create_home ha
  obtain ⟨file', hfile'⟩ := create_home hc
  obtain ⟨file'', hfile''⟩ := create_home hw
  have hfirst := @Reached.create .verbatim _ Diary.journal _ _ _ _ _ _ _ 0
    (@Reached.start .verbatim _ _ {}) ha hfile
  have hboth := @Reached.create .verbatim _ _ _ _ _ _ _ _ _ 2 hfirst hc hfile'
  have hmerged := @Reached.merge .verbatim _ _ _ _ _ 0 2 _ _ _ _ _ _ hboth rfl rfl (by decide)
    (runAt_eq hwc hwc')
    rfl
  have hmade := @Reached.create .verbatim _ _ _ _ _ _ _ _ _ 1 hmerged hw hfile''
  have hequipped := @Reached.equip .verbatim _ _ _ _ _ 1 w (some (refuses 1)) w.summaryStatistics
    hmade rfl
  have hmerged' := @Reached.merge .verbatim _ _ _ _ _ 1 0 _ _ _ _ _ _ hequipped rfl rfl (by decide)
    (runAt_eq hwa hwa') rfl
  have hbroken := @Reached.task .verbatim _ _ _ _ _ 1 _ _ _ .close hmerged' rfl (runAt_eq hwx hwx')
  have hwritten := @Reached.task .verbatim _ _ _ _ _ 1 _ _ _ (.write [.int32 1]) hbroken rfl
    (runAt_eq hwy hwy')
  have hflushed := @Reached.task .verbatim _ _ _ _ _ 1 _ _ _ .flush hwritten rfl (runAt_eq hwz hwz')
  refine ⟨_, _, wz.2.writer, hflushed, rfl, hlog, hopen, ?_⟩
  rw [hoffset, List.take_zero]
  exact htorn

end Writer

end ColumnFile
