import ColumnFile.Proofs.Writer.Directory
import ColumnFile.Proofs.Writer.Faults

/-! # What writers have written stays

Any number of writers share the files of one store. They are made, take rows, are flushed, merged
and closed, in any order, and any call may fail at any point: rows that do not fit, stripes that are
refused, merges that are rejected or break off, files that are not made. The directory of each of
them is in order in every state that they reach, and the octets that it covers are never changed
again, by no writer.

* **`Writer.Crew`** — the writers and their archive.
* **`Writer.Turn`** — one thing that happens, whatever comes of it.
* **`Writer.Crew.Steady`** — every writer is sound, and no two share a file.
* **`Writer.Turn.keeps`** — a turn keeps this, and the octets that all writers leave alone.
* **`Writer.Diary`**, **`Writer.Reached`** — what may be noted of turns;
  **`Writer.reached_of_turns`**, **`Writer.Reached.turns`** — every run can be noted, and nothing
  else is.
* **`Writer.directory_appends`** — directories are in order, and what they cover stays. -/

namespace ColumnFile.Writer

open Writing

/-! ## (1) Turns -/

/-- A **crew**: writers by their number, and the archive that they share. -/
structure Crew where
  /-- What they leave behind. -/
  archive : Archive
  /-- The writer of a number, if there is one. -/
  member : Nat → Option Writer

/-- A crew without writers, in an archive where files of others may be. -/
def Crew.start (archive : Archive) : Crew where
  archive := archive
  member := fun _ => none

/-- What is **asked of a writer**. -/
inductive Task
  /-- One more row. -/
  | write (row : Row)
  /-- The rows so far as a stripe. -/
  | flush
  /-- The end of the file. -/
  | close
deriving DecidableEq, Inhabited

variable [Library]

/-- The step that does a task. -/
def Task.step : Task → Writing Unit
  | .write row => Writer.write row
  | .flush => Writer.flush
  | .close => Writer.close

/-- **A turn**: one thing that happens, whatever comes of it. -/
inductive Turn : Crew → Crew → Prop
  /-- A writer is made. -/
  | create {crew : Crew} {options : WriterOptions} {w : Writer} {store : Store} (i : Nat)
      (step : Writer.create options crew.archive.store = (.ok w, store)) :
      Turn crew { archive := { crew.archive with store },
                  member := Function.update crew.member i (some w) }
  /-- A writer is not made, but files may be left. -/
  | unmade {crew : Crew} {options : WriterOptions} {e : Fault} {store : Store}
      (step : Writer.create options crew.archive.store = (.error e, store)) :
      Turn crew { crew with archive.store := store }
  /-- A writer gets another sink for the log, and other statistics for its summary. -/
  | equip {crew : Crew} {i : Nat} {w : Writer} (sink : Option LogSink) (summary : Option Collector)
      (member : crew.member i = some w) :
      Turn crew
        { crew with
          member := Function.update crew.member i
            (some { w with sink, summaryStatistics := summary }) }
  /-- A writer is asked for something, and does it or fails. -/
  | task {crew : Crew} {i : Nat} {w : Writer} {outcome : Except Fault Unit} {ws : Workspace}
      (task : Task)
      (member : crew.member i = some w)
      (step : runAt task.step { writer := w, archive := crew.archive } = (outcome, ws)) :
      Turn crew { archive := ws.archive, member := Function.update crew.member i (some ws.writer) }
  /-- A writer is merged into another, or the merge fails; it is gone in any case. -/
  | merge {crew : Crew} {i j : Nat} {a b : Writer} {outcome : Except Fault Unit} {ws : Workspace}
      (first : crew.member i = some a) (second : crew.member j = some b) (two : i ≠ j)
      (step : runAt (Writer.merge b) { writer := a, archive := crew.archive } = (outcome, ws)) :
      Turn crew
        { archive := ws.archive
          member := Function.update (Function.update crew.member j none) i (some ws.writer) }
  /-- A writer is given up. -/
  | drop {crew : Crew} (i : Nat) :
      Turn crew { crew with member := Function.update crew.member i none }

/-- **Every task** is safe. -/
theorem Task.safe (task : Task) : Safe task.step := by
  cases task with
  | write row => exact write_safe row
  | flush => exact flush_safe
  | close => exact close_safe

/-! ## (2) Crews -/

section

omit [Library]

variable {w other : Writer} {store store' : Store} {crew crew' crew'' : Crew} {i : Nat}
  {ws : Workspace}

/-- **A writer stays sound** while the octets that it has written stay. -/
theorem Sound.frame (h : w.Sound store) (hforeign : store'.foreign = false)
    (hcount : store.contents.length ≤ store'.contents.length)
    (hkept : ∀ file n, w.Owns file → n ≤ (store.get file).length →
      (store'.get file).take n = (store.get file).take n) : w.Sound store' := by
  refine ⟨h.toDirectory, hforeign, h.differ, ?_, ?_⟩
  · intro f hf
    obtain ⟨hlt, hlength⟩ := h.file f hf
    exact ⟨Nat.lt_of_lt_of_le hlt hcount,
      Bytes.le_length_of_take (hkept f _ (.inl hf) hlength) hlength⟩
  · intro t ht
    obtain ⟨hlt, hlength⟩ := h.toast t ht
    exact ⟨Nat.lt_of_lt_of_le hlt hcount,
      Bytes.le_length_of_take (hkept t _ (.inr ht) hlength) hlength⟩

/-- **A crew is steady**: every writer is sound, and no two share a file. -/
structure Crew.Steady (crew : Crew) : Prop where
  own : crew.archive.store.foreign = false
  sound : ∀ i w, crew.member i = some w → w.Sound crew.archive.store
  apart : ∀ i j w other, crew.member i = some w → crew.member j = some other → i ≠ j → w.Apart other

/-- **Octets are settled**: the first `n` of a file are there, and all writers leave them alone. -/
structure Crew.Settled (crew : Crew) (file : FileId) (n : Nat) : Prop where
  there : file < crew.archive.store.contents.length
  within : n ≤ (crew.archive.store.get file).length
  left : ∀ i w, crew.member i = some w → w.Leaves file n

/-- **What turns keep**: the crew is steady behind them, and settled octets stay as they are, and
stay settled. -/
structure Crew.Keeps (crew crew' : Crew) : Prop where
  steady : crew'.Steady
  settled : ∀ file n, crew.Settled file n → crew'.Settled file n ∧
    (crew'.archive.store.get file).take n = (crew.archive.store.get file).take n

/-- **A crew without writers** is steady. -/
theorem steady_start {archive : Archive} (hown : archive.store.foreign = false) :
    (Crew.start archive).Steady :=
  ⟨hown, (fun _ _ hmember => nomatch hmember), fun _ _ _ _ hmember => nomatch hmember⟩

/-- A crew keeps itself. -/
theorem Crew.Steady.refl (h : crew.Steady) : crew.Keeps crew :=
  ⟨h, fun _ _ hsettled => ⟨hsettled, rfl⟩⟩

/-- What a crew keeps is kept by all crews behind it. -/
theorem Crew.Keeps.trans (h : crew.Keeps crew') (h' : crew'.Keeps crew'') : crew.Keeps crew'' := by
  refine ⟨h'.steady, fun file n hsettled => ?_⟩
  obtain ⟨hsettled', hkept⟩ := h.settled file n hsettled
  obtain ⟨hsettled'', hkept'⟩ := h'.settled file n hsettled'
  exact ⟨hsettled'', hkept'.trans hkept⟩

/-- **A crew is kept** when one of its members changes or joins: the new one is sound and shares no
file with the others, and octets stay that the others have written, or that are settled. -/
theorem Crew.Steady.change (h : crew.Steady) {w' : Writer} {archive : Archive} (i : Nat)
    (hforeign : archive.store.foreign = false)
    (hcount : crew.archive.store.contents.length ≤ archive.store.contents.length)
    (hsound : w'.Sound archive.store)
    (hapart : ∀ j other, crew.member j = some other → j ≠ i → w'.Apart other)
    (hkept : ∀ file n, n ≤ (crew.archive.store.get file).length →
      ((∃ j other, crew.member j = some other ∧ j ≠ i ∧ other.Owns file) ∨ crew.Settled file n) →
      (archive.store.get file).take n = (crew.archive.store.get file).take n)
    (hleaves : ∀ file n, crew.Settled file n → w'.Leaves file n) :
    crew.Keeps { archive, member := Function.update crew.member i (some w') } := by
  -- the others are sound and apart as before, and nothing that is settled changes
  refine ⟨⟨hforeign, ?_, ?_⟩, ?_⟩
  · intro j other hmember
    rcases listed_of_join hmember with ⟨-, rfl⟩ | ⟨hj, hmember⟩
    · exact hsound
    · exact (h.sound j other hmember).frame hforeign hcount
        fun file n howns hn => hkept file n hn (.inl ⟨j, other, hmember, hj, howns⟩)
  · intro j k first second hfirst hsecond hjk
    rcases listed_of_join hfirst with ⟨hj, rfl⟩ | ⟨hj, hold⟩
    · rcases listed_of_join hsecond with ⟨hk, -⟩ | ⟨hk, hold'⟩
      · exact absurd (hj.trans hk.symm) hjk
      · exact hapart k second hold' hk
    · rcases listed_of_join hsecond with ⟨-, rfl⟩ | ⟨-, hold'⟩
      · exact (hapart j first hold hj).symm
      · exact h.apart j k first second hold hold' hjk
  · intro file n hsettled
    have hstays := hkept file n hsettled.within (.inr hsettled)
    refine ⟨⟨Nat.lt_of_lt_of_le hsettled.there hcount,
      Bytes.le_length_of_take hstays hsettled.within, ?_⟩, hstays⟩
    intro j other hmember
    rcases listed_of_join hmember with ⟨-, rfl⟩ | ⟨-, hmember⟩
    · exact hleaves file n hsettled
    · exact hsettled.left j other hmember

/-- **A writer that proceeds** keeps its crew. -/
theorem Crew.Steady.proceed (h : crew.Steady) (hmember : crew.member i = some w)
    (hproceeds : Proceeds { writer := w, archive := crew.archive } ws) :
    crew.Keeps { archive := ws.archive,
                 member := Function.update crew.member i (some ws.writer) } := by
  refine h.change i hproceeds.sound.foreign (Nat.le_of_eq hproceeds.count.symm)
    hproceeds.sound ?_ ?_
    fun file n hsettled => hproceeds.leaves (hsettled.left i w hmember)
  · intro j other hother hj file howns
    exact h.apart i j w other hmember hother hj.symm file (hproceeds.owns howns)
  · rintro file n hn (⟨j, other, hother, hj, howns⟩ | hsettled)
    · refine hproceeds.kept file n hn (leaves_of_not_owns ?_ n)
      exact fun hours => h.apart i j w other hmember hother hj.symm file hours howns
    · exact hproceeds.kept file n hn (hsettled.left i w hmember)

/-- **A crew without one of its writers** is kept. -/
theorem Crew.Steady.drop (h : crew.Steady) (i : Nat) :
    crew.Keeps { crew with member := Function.update crew.member i none } := by
  refine ⟨⟨h.own, fun j w hmember => h.sound j w (listed_of_drop hmember).2, ?_⟩, ?_⟩
  · intro j k first second hfirst hsecond hjk
    exact h.apart j k first second (listed_of_drop hfirst).2 (listed_of_drop hsecond).2 hjk
  · intro file n hsettled
    exact ⟨⟨hsettled.there, hsettled.within,
      fun j w hmember => hsettled.left j w (listed_of_drop hmember).2⟩, rfl⟩

/-- **Files that are added** leave a crew as it is. -/
theorem Crew.Steady.grow (h : crew.Steady) (hgrows : Store.Grows crew.archive.store store) :
    crew.Keeps { crew with archive.store := store } := by
  have hkept : ∀ file n, (store.get file).take n = (crew.archive.store.get file).take n := by
    intro file n
    rw [hgrows.old]
  refine ⟨⟨hgrows.foreign, ?_, h.apart⟩, ?_⟩
  · intro j w hmember
    exact (h.sound j w hmember).frame hgrows.foreign hgrows.count fun file n _ _ => hkept file n
  · intro file n hsettled
    refine ⟨⟨Nat.lt_of_lt_of_le hsettled.there hgrows.count, ?_, hsettled.left⟩, hkept file n⟩
    show n ≤ (store.get file).length
    rw [hgrows.old]
    exact hsettled.within

/-- **What a sound writer has written** is settled. -/
theorem Crew.Steady.settled (h : crew.Steady) (hmember : crew.member i = some w) :
    (∀ f, w.file = some f → crew.Settled f w.offset) ∧
      ∀ t, w.toastFile = some t → crew.Settled t w.toastOffset := by
  have hsound := h.sound i w hmember
  -- another writer leaves all of its files alone
  have hothers : ∀ file n, w.Owns file → w.Leaves file n →
      ∀ j other, crew.member j = some other → other.Leaves file n := by
    intro file n howns hleaves j other hother
    by_cases hj : j = i
    · subst hj
      cases hmember.symm.trans hother
      exact hleaves
    · exact leaves_of_not_owns (h.apart i j w other hmember hother (Ne.symm hj) file howns) n
  constructor
  · intro f hf
    obtain ⟨hlt, hlength⟩ := hsound.file f hf
    refine ⟨hlt, hlength, hothers f _ (.inl hf) ⟨fun _ => Nat.le_refl _, ?_⟩⟩
    exact fun ht => absurd ht (hsound.differ f hf)
  · intro t ht
    obtain ⟨hlt, hlength⟩ := hsound.toast t ht
    refine ⟨hlt, hlength, hothers t _ (.inr ht) ⟨?_, fun _ => Nat.le_refl _⟩⟩
    exact fun hf => absurd ht (hsound.differ t hf)

end

variable {crew crew' : Crew}

/-- **A new writer** joins a crew. -/
theorem Crew.Steady.join (h : crew.Steady) {options : WriterOptions} {w : Writer} {store : Store}
    (i : Nat) (hcreate : create options crew.archive.store = (.ok w, store)) :
    crew.Keeps
      { archive := { crew.archive with store },
        member := Function.update crew.member i (some w) } := by
  obtain ⟨hstored, -, hbegins⟩ := create_stored h.own hcreate
  obtain ⟨f, hf, hlt, hlength, hdiffer, -⟩ := hstored.file
  have hgrows : Store.Grows crew.archive.store store := hbegins.toGrows
  have hsound : w.Sound store := by
    obtain ⟨file, store₁, toastFile, columns, -, -, -, -, rfl⟩ := create_ok hcreate
    refine ⟨directory_nil rfl rfl, hgrows.foreign, ?_, ?_, fun t ht => hstored.toast t ht⟩
    · intro f' hf'
      cases hf.symm.trans hf'
      exact hdiffer
    · intro f' hf'
      cases hf.symm.trans hf'
      exact ⟨hlt, Nat.le_of_eq hlength.symm⟩
  refine h.change i hgrows.foreign hgrows.count hsound ?_ ?_ ?_
  · intro j other hother _ file howns hother'
    exact Nat.not_le_of_lt ((h.sound j other hother).owns_lt hother') (hbegins.new file howns)
  · intro file n _ _
    show (store.get file).take n = _
    rw [hgrows.old]
  · intro file n hsettled
    exact leaves_of_not_owns (fun howns => Nat.not_le_of_lt hsettled.there (hbegins.new file howns))
      n

/-! ## (3) Runs -/

/-- **A turn** keeps a steady crew. -/
theorem Turn.keeps (h : Turn crew crew') (hsteady : crew.Steady) : crew.Keeps crew' := by
  cases h with
  | create i step => exact hsteady.join i step
  | unmade step => exact hsteady.grow (create_failed hsteady.own step)
  | @equip i w sink summary hmember =>
      have hequipped : Proceeds { writer := w, archive := crew.archive }
          { writer := { w with sink, summaryStatistics := summary }, archive := crew.archive } :=
        (hsteady.sound i w hmember).stay (stays_of_eq rfl rfl rfl rfl rfl) rfl rfl
      exact hsteady.proceed hmember hequipped
  | @task i w outcome ws task hmember step =>
      exact hsteady.proceed hmember (task.safe step (hsteady.sound i w hmember))
  | @merge i j a b outcome ws hfirst hsecond htwo step =>
      -- the other writer is gone, but its directory is in order
      have hkeeps := hsteady.drop j
      have hours : Function.update crew.member j none i = some a := listed_beside hfirst htwo
      have hother := (hsteady.sound j b hsecond).toDirectory
      exact hkeeps.trans (hkeeps.steady.proceed hours
        (merge_safe hother step (hkeeps.steady.sound i a hours)))
  | drop i => exact hsteady.drop i

/-- **All turns** keep a steady crew. -/
theorem keeps_of_turns (h : Relation.ReflTransGen Turn crew crew') (hsteady : crew.Steady) :
    crew.Keeps crew' := by
  induction h with
  | refl => exact hsteady.refl
  | tail _ hturn ih => exact ih.trans (hturn.keeps ih.steady)

/-- **Calls that succeed** are turns. -/
theorem turns_of_perform {calls : List Call} {i : Nat} {w : Writer} {ws : Workspace}
    (hmember : crew.member i = some w)
    (h : runAt (perform calls) { writer := w, archive := crew.archive } = (.ok (), ws)) :
    Relation.ReflTransGen Turn crew
      { archive := ws.archive, member := Function.update crew.member i (some ws.writer) } := by
  induction calls generalizing crew w with
  | nil =>
      obtain ⟨-, rfl⟩ := pure_ok h
      rw [Function.update_eq_self_iff.mpr hmember.symm]
  | cons call calls ih =>
      obtain ⟨⟨⟩, w₁, hfirst, hrest⟩ := bind_ok h
      have hturn : Turn crew
          { archive := w₁.archive, member := Function.update crew.member i (some w₁.writer) } := by
        cases call with
        | write row => exact .task (.write row) hmember hfirst
        | flush => exact .task .flush hmember hfirst
      have hturns := @ih (.mk w₁.archive (Function.update crew.member i (some w₁.writer))) _
        (Function.update_self i _ _) hrest
      rw [Function.update_idem] at hturns
      exact .head hturn hturns

/-! ## (4) Diaries -/

/-- **What turns note** of every writer, beside any program. Unlike a `Note`, a page sees the
workspace before and behind a task. -/
structure Diary (α : Type) where
  /-- The page of someone who is not a writer yet. -/
  blank : α
  /-- The page of a writer that is made, with its options and its file. -/
  made : WriterOptions → FileId → α
  /-- The page behind a task, from what there was before it and what there is then. -/
  task : Workspace → Workspace → α → α
  /-- The pages behind a merge: that of the writer that goes on, and that of the one that is
  gone. -/
  merge : Writer → Workspace → Workspace → α → α → α × α

/-- **What turns reach**, and what is noted of it. Here a call may fail in any way, also where it
leaves rows astray, and a page may tell of all that a call did to the archive. A `Run` keeps to what
a ledger of rows can tell: its calls succeed or fail as its rules allow, and the notes follow from
the events alone. -/
inductive Reached {α : Type} (diary : Diary α) (archive : Archive) : Crew → (Nat → α) → Prop
  /-- There are no writers yet. -/
  | start : Reached diary archive (.start archive) fun _ => diary.blank
  /-- A writer is made. -/
  | create {crew : Crew} {pages : Nat → α} {options : WriterOptions} {w : Writer} {store : Store}
      {file : FileId} (i : Nat) (before : Reached diary archive crew pages)
      (step : Writer.create options crew.archive.store = (.ok w, store))
      (home : w.file = some file) :
      Reached diary archive
        { archive := { crew.archive with store }, member := Function.update crew.member i (some w) }
        (Function.update pages i (diary.made options file))
  /-- A writer is not made, but files may be left. -/
  | unmade {crew : Crew} {pages : Nat → α} {options : WriterOptions} {e : Fault} {store : Store}
      (before : Reached diary archive crew pages)
      (step : Writer.create options crew.archive.store = (.error e, store)) :
      Reached diary archive { crew with archive.store := store } pages
  /-- A writer gets another sink for the log, and other statistics for its summary. -/
  | equip {crew : Crew} {pages : Nat → α} {i : Nat} {w : Writer} (sink : Option LogSink)
      (summary : Option Collector) (before : Reached diary archive crew pages)
      (member : crew.member i = some w) :
      Reached diary archive
        { crew with
          member := Function.update crew.member i
            (some { w with sink, summaryStatistics := summary }) } pages
  /-- A writer is asked for something, and does it or fails. -/
  | task {crew : Crew} {pages : Nat → α} {i : Nat} {w : Writer} {outcome : Except Fault Unit}
      {ws : Workspace} (task : Task) (before : Reached diary archive crew pages)
      (member : crew.member i = some w)
      (step : runAt task.step { writer := w, archive := crew.archive } = (outcome, ws)) :
      Reached diary archive
        { archive := ws.archive, member := Function.update crew.member i (some ws.writer) }
        (Function.update pages i (diary.task { writer := w, archive := crew.archive } ws (pages i)))
  /-- A writer is merged into another, or the merge fails; it is gone in any case. -/
  | merge {crew : Crew} {pages : Nat → α} {i j : Nat} {a b : Writer} {outcome : Except Fault Unit}
      {ws : Workspace} {ours theirs : α} (before : Reached diary archive crew pages)
      (first : crew.member i = some a) (second : crew.member j = some b) (two : i ≠ j)
      (step : runAt (Writer.merge b) { writer := a, archive := crew.archive } = (outcome, ws))
      (noted : diary.merge b { writer := a, archive := crew.archive } ws (pages i) (pages j) =
        (ours, theirs)) :
      Reached diary archive
        { archive := ws.archive
          member := Function.update (Function.update crew.member j none) i (some ws.writer) }
        (Function.update (Function.update pages j theirs) i ours)
  /-- A writer is given up. -/
  | drop {crew : Crew} {pages : Nat → α} (i : Nat) (before : Reached diary archive crew pages) :
      Reached diary archive { crew with member := Function.update crew.member i none } pages

omit [Library] in
/-- A new writer has a file. -/
theorem create_home {options : WriterOptions} {w : Writer} {store store' : Store}
    (h : Writer.create options store = (.ok w, store')) : ∃ file, w.file = some file := by
  obtain ⟨file, _, _, _, -, -, -, -, hw⟩ := create_ok h
  exact ⟨file, congrArg Writer.file hw⟩

/-- **Every run** can be noted. -/
theorem reached_of_turns {α : Type} (diary : Diary α) {archive : Archive}
    (h : Relation.ReflTransGen Turn (.start archive) crew) :
    ∃ pages, Reached diary archive crew pages := by
  induction h with
  | refl => exact ⟨_, .start⟩
  | tail _ hturn ih =>
      obtain ⟨pages, hreached⟩ := ih
      cases hturn with
      | create i step =>
          obtain ⟨file, hfile⟩ := create_home step
          exact ⟨_, .create i hreached step hfile⟩
      | unmade step => exact ⟨_, .unmade hreached step⟩
      | equip sink summary member => exact ⟨_, .equip sink summary hreached member⟩
      | task task member step => exact ⟨_, .task task hreached member step⟩
      | merge first second two step => exact ⟨_, .merge hreached first second two step rfl⟩
      | drop i => exact ⟨_, .drop i hreached⟩

/-- **What is noted** is noted of turns. -/
theorem Reached.turns {α : Type} {diary : Diary α} {archive : Archive} {pages : Nat → α}
    (h : Reached diary archive crew pages) : Relation.ReflTransGen Turn (.start archive) crew := by
  induction h with
  | start => exact .refl
  | create i _ step _ ih => exact ih.tail (.create i step)
  | unmade _ step ih => exact ih.tail (.unmade step)
  | equip sink summary _ member ih => exact ih.tail (.equip sink summary member)
  | task task _ member step ih => exact ih.tail (.task task member step)
  | merge _ first second two step _ ih => exact ih.tail (.merge first second two step)
  | drop i _ ih => exact ih.tail (.drop i)

/-- **A crew that is reached** in files of one's own is steady. -/
theorem Reached.steady {α : Type} {diary : Diary α} {archive : Archive} {pages : Nat → α}
    (h : Reached diary archive crew pages) (hown : archive.store.foreign = false) : crew.Steady :=
  (keeps_of_turns h.turns (steady_start hown)).steady

/-! ## (5) What stays -/

/-- **What is written stays.** Any number of writers share the files of one store of one's own, and
whatever they are asked for, in any order, they do it or fail. In every state that they reach, the
directory of each of them is in order: its stripes tile the file up to where the next one begins,
none is without rows, and their values out of line lie in their order, apart from each other and
before those of the next one, as many octets as there are of all columns. The octets of its files up
to these places are there, and are the same in every state that is reached later, even when the
writer is gone. -/
theorem directory_appends {archive : Archive} (hown : archive.store.foreign = false) {later : Crew}
    (hreached : Relation.ReflTransGen Turn (.start archive) crew)
    (hlater : Relation.ReflTransGen Turn crew later) {i : Nat} {w : Writer}
    (hmember : crew.member i = some w) :
    w.Directory ∧
      (∀ f, w.file = some f → w.offset ≤ (crew.archive.store.get f).length ∧
        (later.archive.store.get f).take w.offset = (crew.archive.store.get f).take w.offset) ∧
      ∀ t, w.toastFile = some t → w.toastOffset ≤ (crew.archive.store.get t).length ∧
        (later.archive.store.get t).take w.toastOffset =
          (crew.archive.store.get t).take w.toastOffset := by
  have hsteady := (keeps_of_turns hreached (steady_start hown)).steady
  have hkeeps := keeps_of_turns hlater hsteady
  obtain ⟨hfile, htoast⟩ := hsteady.settled hmember
  refine ⟨(hsteady.sound i w hmember).toDirectory, ?_, ?_⟩
  · intro f hf
    exact ⟨(hfile f hf).within, (hkeeps.settled f _ (hfile f hf)).2⟩
  · intro t ht
    exact ⟨(htoast t ht).within, (hkeeps.settled t _ (htoast t ht)).2⟩

omit [Library] in
/-- A merge that broke off behind the first stripe of another writer: the stripe is listed in order,
and its octets are the same in the closed file. -/
theorem directory_appends_broken :
    ∃ (a b : Writer) (store store' : Store) (kept merged closed : Workspace),
      create (textColumn "f" none) {} = (.ok a, store) ∧
      create (textColumn "g" (some 2)) store = (.ok b, store') ∧
      runAt (@perform .verbatim longText) { writer := b, archive := { store := store' } } =
        (.ok (), kept) ∧
      runAt (@merge .verbatim kept.writer) { writer := a, archive := kept.archive } =
        (.error .toastWithoutFile, merged) ∧
      runAt (@close .verbatim) merged = (.ok (), closed) ∧
      merged.writer.stripes.length = 1 ∧ merged.writer.Directory ∧
      ∀ f, merged.writer.file = some f →
      merged.writer.offset ≤ (merged.archive.store.get f).length ∧
        (closed.archive.store.get f).take merged.writer.offset =
          (merged.archive.store.get f).take merged.writer.offset := by
  -- the calls are evaluated; that nothing settled changes follows from the turns
  have hrun : ∃ a b store store' wb wm wc, create (textColumn "f" none) {} = (.ok a, store) ∧
      create (textColumn "g" (some 2)) store = (.ok b, store') ∧
      wb = runAt (@perform .verbatim longText) { writer := b, archive := { store := store' } } ∧
      wb.1 = .ok () ∧
      wm = runAt (@merge .verbatim wb.2.writer) { writer := a, archive := wb.2.archive } ∧
      wm.1 = .error .toastWithoutFile ∧
      wc = runAt (@close .verbatim) wm.2 ∧ wc.1 = .ok () ∧ wm.2.writer.stripes.length = 1 :=
    ⟨_, _, _, _, _, _, _, rfl, rfl, rfl, by decide +kernel, rfl, by decide +kernel, rfl,
      by decide +kernel, by decide +kernel⟩
  obtain ⟨a, b, store, store', wb, wm, wc, ha, hb, hwb, hwb', hwm, hwm', hwc, hwc', hlisted⟩ := hrun
  have hboth : Relation.ReflTransGen (@Turn .verbatim) (.start {}) _ :=
    (Relation.ReflTransGen.single (@Turn.create .verbatim (.start {}) _ _ _ 0 ha)).tail
      (@Turn.create .verbatim _ _ _ _ 1 hb)
  have hkept := hboth.trans (@turns_of_perform .verbatim _ _ 1 b wb.2 rfl (runAt_eq hwb hwb'))
  have hmerged :=
    hkept.tail (@Turn.merge .verbatim _ 0 1 _ _ _ _ rfl rfl (by decide) (runAt_eq hwm hwm'))
  obtain ⟨hdirectory, hfile, -⟩ := @directory_appends .verbatim _ {} rfl _ hmerged
    (.single (@Turn.task .verbatim _ 0 wm.2.writer _ _ .close rfl (runAt_eq hwc hwc'))) 0 _ rfl
  exact ⟨a, b, store, store', wb.2, wm.2, wc.2, ha, hb, runAt_eq hwb hwb', runAt_eq hwm hwm',
    runAt_eq hwc hwc', hlisted, hdirectory, hfile⟩

end ColumnFile.Writer
