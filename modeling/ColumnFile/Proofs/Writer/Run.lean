import ColumnFile.Proofs.Writer.Calls
import ColumnFile.Proofs.Writer.Merge

/-! # Runs of writers

Any number of writers share the files of one store. They are made, take rows, are flushed, merged
and closed, in any order, and some of their calls fail. Beside each writer goes a note, which is not
part of any program: what becomes of it is told from what happens to the writer, and from whether it
failed.

* **`Writer.Event`**, **`Writer.Occurs`** — a call and its outcome; `Ledger.after` is what it comes
  to.
* **`Writer.write_occurs`**, **`Writer.close_occurs`** — whatever comes of a call is such an event,
  or changes nothing, or is a row that goes astray; **`Writer.Strays.cause`** says when one does.
* **`Writer.Note`**, **`Writer.Run`** — what may be noted, and the runs that keep some rules.
* **`Writer.Run.tracked`** — the same run with other notes, if these are related to the first.
* **`Writer.Run.each`** — what every step keeps holds of every writer. -/

namespace ColumnFile

/-! ## (1) Events -/

/-- What is asked of an open writer, and **may fail** without ending its work. -/
inductive Writer.Event
  /-- One more row. -/
  | write (row : Row)
  /-- The rows so far as a stripe. -/
  | flush
  /-- The file is to be closed, but stays open. -/
  | close
deriving DecidableEq, Inhabited

/-- What an event with an outcome comes to. -/
def Ledger.after (limit : Nat) : Writer.Event → Except Fault Unit → Ledger → Ledger
  | .write row, outcome, l => l.write limit row outcome
  | .flush, outcome, l => l.flush outcome
  | .close, outcome, l => l.flush outcome

/-- An event that succeeds leaves a ledger clean. -/
theorem Ledger.Clean.after {l : Ledger} (h : l.Clean) (limit : Nat) (event : Writer.Event) :
    (l.after limit event (.ok ())).Clean := by
  cases event with
  | write row => exact h.write limit row
  | flush => exact h.flushed
  | close => exact h.flushed

/-- An event leaves a ledger backed, whatever comes of it. -/
theorem Ledger.Backed.after {l : Ledger} (h : l.Backed) (limit : Nat) (event : Writer.Event)
    (outcome : Except Fault Unit) : (l.after limit event outcome).Backed := by
  cases event with
  | write row => exact h.write limit row outcome
  | flush => exact h.flush outcome
  | close => exact h.flush outcome

/-- A call that succeeds, as an event. -/
def Writer.Call.event : Writer.Call → Writer.Event
  | .write row => .write row
  | .flush => .flush

/-- The rows that an event brings. -/
def Writer.Event.rows : Writer.Event → List Row
  | .write row => [row]
  | .flush => []
  | .close => []

@[simp] theorem Writer.Call.rows_event (call : Writer.Call) :
    call.event.rows = Writer.written [call] := by
  cases call with
  | write row => rfl
  | flush => rfl

@[simp] theorem Ledger.rows_after (limit : Nat) (event : Writer.Event) (l : Ledger) :
    (l.after limit event (.ok ())).rows = l.rows ++ event.rows := by
  cases event with
  | write row => exact l.rows_write limit row
  | flush => exact l.rows_flushed.trans (List.append_nil _).symm
  | close => exact l.rows_flushed.trans (List.append_nil _).symm

@[simp] theorem Ledger.counted_after (limit : Nat) (event : Writer.Event)
    (outcome : Except Fault Unit) (l : Ledger) :
    (l.after limit event outcome).counted = l.counted ++ event.rows := by
  cases event with
  | write row => exact l.counted_write limit row outcome
  | flush => exact (l.counted_flush outcome).trans (List.append_nil _).symm
  | close => exact (l.counted_flush outcome).trans (List.append_nil _).symm

namespace Writer

open Writing

variable [Library] {ws ws' : Workspace} {l l' : Ledger} {outcome : Except Fault Unit} {e : Fault}

/-- **An event occurs**: a row is written, or the flush behind it fails, but it is counted; or there
is a flush; or the file is not closed, and the writer does not let go of it. -/
inductive Occurs : Event → Except Fault Unit → Workspace → Workspace → Prop
  | write {row : Row} {outcome : Except Fault Unit} {ws ws' : Workspace}
      (step : runAt (Writer.write row) ws = (outcome, ws'))
      (counted : outcome = .ok () ∨ ws'.writer.tuples = ws.writer.tuples + 1) :
      Occurs (.write row) outcome ws ws'
  | flush {outcome : Except Fault Unit} {ws ws' : Workspace}
      (step : runAt Writer.flush ws = (outcome, ws')) :
      Occurs .flush outcome ws ws'
  | close {e : Fault} {ws ws' : Workspace} (step : runAt Writer.close ws = (.error e, ws'))
      (stays : ws'.writer.file ≠ none) : Occurs .close (.error e) ws ws'

/-- **A call that succeeds** is an event. -/
theorem Call.occurs {call : Call} (h : runAt call.step ws = (.ok (), ws')) :
    Occurs call.event (.ok ()) ws ws' := by
  cases call with
  | write row => exact .write h (.inl rfl)
  | flush => exact .flush h

/-- **An event that succeeds** is a call. -/
theorem Occurs.call {event : Event} (h : Occurs event (.ok ()) ws ws') :
    ∃ call : Call, call.event = event ∧ runAt call.step ws = (.ok (), ws') := by
  cases h with
  | @write row _ _ _ step _ => exact ⟨.write row, rfl, step⟩
  | flush step => exact ⟨.flush, rfl, step⟩

/-- **A close that failed** and did not let go of the file is a flush that failed. -/
theorem close_failed (hopen : ws.writer.closed = false) (h : runAt close ws = (.error e, ws'))
    (hstays : ws'.writer.file ≠ none) : runAt flush ws = (.error e, ws') := by
  rcases close_cases h with ⟨hclosed, -, -⟩ | ⟨e', he, hflush⟩ | ⟨w₁, -, hends⟩
  · rw [hopen] at hclosed
    cases hclosed
  · cases he
    exact hflush
  · -- behind the flush the file is let go of
    rcases hends with ⟨-, rfl⟩ | ⟨file, store, closed, summaries, -, rfl, -, -⟩
    · exact absurd rfl hstays
    · exact absurd rfl hstays

/-- **A row that is written occurs**, or changes nothing, or goes astray. -/
theorem write_occurs (hlibrary : BlockLibrary.Restores)
    (hfollows : ws.writer.Follows ws.archive.store l) {row : Row}
    (h : runAt (write row) ws = (outcome, ws')) :
    Occurs (.write row) outcome ws ws' ∨ ∃ e, outcome = .error e ∧
    (ws' = ws ∨ Strays row e ws ws') := by
  have htaken : Takes row outcome ws ws' → Occurs (.write row) outcome ws ws' := by
    intro htakes
    obtain ⟨-, hwritten⟩ := write_follows hlibrary hfollows htakes
    refine .write h (.inr ?_)
    rw [hwritten.tuples, hfollows.tuples, Ledger.counted_write, List.length_append,
      List.length_singleton]
  cases outcome with
  | ok u => exact .inl (.write h (.inl rfl))
  | error e =>
      rcases write_failed h with hsame | hstrays | htakes
      · exact .inr ⟨e, rfl, .inl hsame⟩
      · exact .inr ⟨e, rfl, .inr hstrays⟩
      · exact .inl (htaken htakes)

/-- **A row goes astray** only where a column takes no more octets, or where the summary is of other
columns. -/
theorem Strays.cause {row : Row} (h : Strays row e ws ws')
    (hfollows : ws.writer.Follows ws.archive.store l) :
    (∃ values columns, storedRow ws.writer.options.schema row = .ok values ∧
      appendValues ws.writer.options.toastThreshold ws.writer.columns values =
        (.error e, columns)) ∨
    ∃ summary, ws.writer.summaryStatistics = some summary ∧ summary.addRow row = .error e := by
  obtain ⟨hwidth, values, columns, hvalues, ⟨hfailed, -⟩ | ⟨-, hcount⟩⟩ := h
  · exact .inl ⟨values, columns, hvalues, hfailed⟩
  · have hsuits := suits_of_storedRow hvalues hwidth
    rcases count_failed hcount with ⟨hadd, -⟩ | ⟨_, -, hadd, -⟩ |
      ⟨_, _, summary, -, -, hsummary, hadd, -⟩
    · obtain ⟨s', hs'⟩ := hfollows.stripeStatistics.addRow_total hsuits
      cases hs'.symm.trans hadd
    · obtain ⟨s', hs'⟩ := hfollows.fileStatistics.addRow_total hsuits
      cases hs'.symm.trans hadd
    · exact .inr ⟨summary, hsummary, hadd⟩

/-- **A close that failed occurs**: a writer whose paths lead to its files does not let go of
them. -/
theorem close_occurs (hlibrary : BlockLibrary.Restores)
    (hfollows : ws.writer.Follows ws.archive.store l) (hleads : ws.writer.Leads ws.archive.store)
    (h : runAt close ws = (.error e, ws')) :
    Occurs .close (.error e) ws ws' := by
  have hclose := h
  unfold close at h
  have h := writer_ok h
  rw [hfollows.isOpen, Bool.not_false, if_pos rfl] at h
  rcases bind_error h with hflush | ⟨⟨⟩, w₁, hflush, h⟩
  · obtain ⟨-, hrefused⟩ := flush_follows hlibrary hfollows hflush
    obtain ⟨f, hf, -⟩ := hrefused.stored.file
    refine .close hclose ?_
    rw [hf]
    exact Option.some_ne_none f
  -- nothing fails behind the flush: the path of the file of values is there to be deleted
  obtain ⟨hadvances, hflushed⟩ := flush_follows hlibrary hfollows hflush
  obtain ⟨f, hf, -⟩ := hflushed.stored.file
  have h := writer_ok h
  have h := setWriter_ok h
  rw [hf] at h
  have h := setStore_ok h
  rcases bind_error h with htoast | ⟨⟨⟩, w₂, -, h⟩
  · unfold closeToast at htoast
    have htoast := writer_ok htoast
    have htoast := setWriter_ok htoast
    dsimp only at htoast
    by_cases hempty : w₁.writer.toastFile.isSome ∧ w₁.writer.toastOffset = 0
    · rw [if_pos hempty] at htoast
      have htoast := store_ok htoast
      obtain ⟨t, ht⟩ := Option.isSome_iff_exists.mp hempty.1
      have hwrites : Store.Writes (fun _ => True) w₁.archive.store
          (w₁.archive.store.write f w₁.writer.offset (tail w₁.writer.footer)) :=
        Store.writes_write trivial _ _
      have hfind := (hwrites.find? _).trans
        (((hadvances.leads hleads).toast (by rw [ht]; exact Option.some_ne_none t)).trans ht)
      rw [Store.delete_of_some (hwrites.foreign.trans hflushed.stored.foreign) hfind] at htoast
      rcases lift_error htoast with ⟨hnone, -⟩ | ⟨store, -, htoast⟩
      · cases hnone
      · cases htoast
    · rw [if_neg hempty] at htoast
      cases htoast
  · cases h

/-- **A writer follows** what its events come to. -/
theorem Occurs.follows (hlibrary : BlockLibrary.Restores) {event : Event}
    (h : Occurs event outcome ws ws') (hfollows : ws.writer.Follows ws.archive.store l) :
    Advances ws ws' ∧
      ws'.writer.Follows ws'.archive.store
        (l.after ws.writer.options.groupLimit event outcome) := by
  cases h with
  | @write row _ _ _ step counted =>
      have htakes : Takes row outcome ws ws' := by
        rcases counted with rfl | hcounted
        · exact (write_ok step).2
        · exact write_counted step hcounted
      exact write_follows hlibrary hfollows htakes
  | flush step => exact flush_follows hlibrary hfollows step
  | close step stays =>
    exact flush_follows hlibrary hfollows (close_failed hfollows.isOpen step stays)

/-- **A merge that broke off** behind its flush: what came over is told from the directory and from
the count of rows. -/
theorem merge_broken (hlibrary : BlockLibrary.Restores) {other : Writer} {w₁ : Workspace} {n : Nat}
    (h : runAt (merge other) ws = (.error e, ws')) (hours : ws.writer.Follows ws.archive.store l)
    (htheirs : other.Follows ws.archive.store l') (hapart : ws.writer.Apart other)
    (hflush : runAt flush ws = (.ok (), w₁))
    (hlisted : ws'.writer.stripes.length = w₁.writer.stripes.length + n) :
    Advances ws ws' ∧ ws'.writer.Follows ws'.archive.store
      ((l.flushed.adopt (l'.flushed.stripes.take n)).count
        (if decide (ws'.writer.tuples ≠ ws.writer.tuples) then l'.counted else [])) := by
  obtain ⟨-, hflushed⟩ := flush_follows hlibrary hours hflush
  have hlisted₁ : w₁.writer.stripes.length = l.flushed.stripes.length := hflushed.listed
  rcases merge_failed hlibrary h hours htheirs hapart with
    ⟨-, rfl⟩ | ⟨-, hfailed | ⟨w₂, m, rest, -, hadvances, hfollows, hrest⟩⟩
  · -- nothing was begun, and nothing was there to flush
    rw [hours.listed, hlisted₁, Ledger.stripes_flushed, List.length_append] at hlisted
    have hpending : l.pending = [] := List.length_eq_zero_iff.mp (by omega)
    have hn : n = 0 := by omega
    rw [if_neg (by simp), hn, List.take_zero,
      Ledger.flushed_of_nil (Ledger.kept_of_pending hpending), Ledger.count_nil, Ledger.adopt_nil]
    exact ⟨Advances.refl _, hours⟩
  · rw [hflush] at hfailed
    cases hfailed
  · -- as many batches came over as the directory has more
    have htake : l'.flushed.stripes.take m = l'.flushed.stripes.take n := by
      have hcount : ws'.writer.stripes.length = l.flushed.stripes.length +
        (l'.flushed.stripes.take m).length :=
        hfollows.listed.trans List.length_append
      rw [List.length_take] at hcount
      have hn : n = min m l'.flushed.stripes.length := by omega
      rw [hn]
      exact List.take_eq_take_min
    have htuples : ws'.writer.tuples = ws.writer.tuples + rest.length := by
      rw [hfollows.tuples, hours.tuples]
      show (l.flushed.counted ++ rest).length = _
      rw [Ledger.counted_flushed, List.length_append]
    have hmore : rest = if decide (ws'.writer.tuples ≠ ws.writer.tuples) then l'.counted
      else [] := by
      rw [htuples]
      rcases hrest with rfl | ⟨rfl, -⟩
      · rw [if_neg (by simp)]
      · by_cases hnone : l'.counted = []
        · rw [hnone, ite_self]
        · have hpositive := List.length_pos_iff.mpr hnone
          rw [if_pos (decide_eq_true (by omega))]
    rw [← hmore, ← htake]
    exact ⟨hadvances, hfollows⟩

/-! ## (2) Sessions -/

/-- The **rules** of a session. -/
structure Rules where
  /-- The names that files may have. -/
  names : String → Prop
  /-- Whether rows of writers may be refused, and writers not made. -/
  refusals : Prop
  /-- Whether merges may break off. -/
  breaks : Prop

/-- Nothing fails. -/
def Rules.strict (names : String → Prop) : Rules := { names, refusals := False, breaks := False }

/-- Rows may be refused. -/
def Rules.refusing (names : String → Prop) : Rules := { names, refusals := True, breaks := False }

/-- Rows may be refused, and merges may break off. -/
def Rules.lax (names : String → Prop) : Rules := { names, refusals := True, breaks := True }

/-- **What is noted** beside every writer of a run. Notes are not part of any program. -/
structure Note (α : Type) where
  /-- The note of a writer that is made. -/
  fresh : α
  /-- The note behind another collector for the summary, if a writer may get it. -/
  equip : Writer → Option Collector → α → α → Prop
  /-- The note behind a row, a flush or a close that was not done, with these options. -/
  after : WriterOptions → Event → Except Fault Unit → α → α
  /-- The note of a writer that took over another. -/
  merge : α → α → α
  /-- The note of a writer whose merge broke off behind some stripes of the other writer, with its
  rows counted or not, if it may break off. -/
  broken : Nat → Bool → α → α → α → Prop

/-- A **register**: writers by their number, each with its note. -/
abbrev Register (α : Type) : Type := Nat → Option (Writer × α)

/-- **A run**: what writers of one archive reach, in any order of their calls, and what is noted of
it. -/
inductive Run {α : Type} (note : Note α) (rules : Rules) : Archive → Register α → Prop
  /-- There are no writers; files of others may be there. -/
  | start {archive : Archive} (own : archive.store.foreign = false) :
      Run note rules archive fun _ => none
  /-- A writer is made. -/
  | create {archive : Archive} {register : Register α} {options : WriterOptions} {w : Writer}
      {store : Store}
      (i : Nat) (before : Run note rules archive register) (allowed : rules.names options.fileName)
      (step : create options archive.store = (.ok w, store)) :
      Run note rules { archive with store } (Function.update register i (some (w, note.fresh)))
  /-- A writer is not made, and may leave new files. -/
  | unmade {archive : Archive} {register : Register α} {options : WriterOptions} {e : Fault}
      {store : Store}
      (before : Run note rules archive register) (allowed : rules.refusals)
      (step : create options archive.store = (.error e, store)) :
      Run note rules { archive with store } register
  /-- A writer gets another sink for the log, and another collector for its summary. -/
  | equip {archive : Archive} {register : Register α} {i : Nat} {w : Writer} {x y : α}
      (sink : Option LogSink) (summary : Option Collector)
      (before : Run note rules archive register)
      (member : register i = some (w, x)) (noted : note.equip w summary x y) :
      Run note rules archive
        (Function.update register i (some ({ w with sink, summaryStatistics := summary }, y)))
  /-- A writer takes a row, is flushed, or is not closed. -/
  | event {archive : Archive} {register : Register α} {i : Nat} {w : Writer} {x : α} {event : Event}
      {outcome : Except Fault Unit} {ws : Workspace} (before : Run note rules archive register)
      (member : register i = some (w, x)) (allowed : outcome = .ok () ∨ rules.refusals)
      (step : Occurs event outcome { writer := w, archive } ws) :
      Run note rules ws.archive
        (Function.update register i (some (ws.writer, note.after w.options event outcome x)))
  /-- A writer is merged into another, and is gone then. -/
  | merge {archive : Archive} {register : Register α} {i j : Nat} {a b : Writer} {x y : α}
      {ws : Workspace}
      (before : Run note rules archive register) (first : register i = some (a, x))
      (second : register j = some (b, y))
      (step : runAt (Writer.merge b) { writer := a, archive } = (.ok (), ws)) :
      Run note rules ws.archive
        (Function.update (Function.update register j none) i (some (ws.writer, note.merge x y)))
  /-- A merge breaks off behind its flush; the other writer is gone then. The directory tells how
  many of its stripes came over, and the count of rows whether its rows are counted. -/
  | broken {archive : Archive} {register : Register α} {i j : Nat} {a b : Writer} {x y z : α}
      {ws w₁ : Workspace} {e : Fault} {n : Nat} (before : Run note rules archive register)
      (allowed : rules.breaks) (first : register i = some (a, x))
      (second : register j = some (b, y))
      (distinct : i ≠ j) (step : runAt (Writer.merge b) { writer := a, archive } = (.error e, ws))
      (flushed : runAt Writer.flush { writer := a, archive } = (.ok (), w₁))
      (listed : ws.writer.stripes.length = w₁.writer.stripes.length + n)
      (noted : note.broken n (decide (ws.writer.tuples ≠ a.tuples)) x y z) :
      Run note rules ws.archive
        (Function.update (Function.update register j none) i (some (ws.writer, z)))
  /-- A writer closes its file, and is gone then. -/
  | close {archive : Archive} {register : Register α} {i : Nat} {w : Writer} {x : α}
      {ws : Workspace}
      (before : Run note rules archive register) (member : register i = some (w, x))
      (step : runAt Writer.close { writer := w, archive } = (.ok (), ws)) :
      Run note rules ws.archive (Function.update register i none)
  /-- A writer is let go of, whatever it has written. -/
  | drop {archive : Archive} {register : Register α} (i : Nat)
      (before : Run note rules archive register) :
      Run note rules archive (Function.update register i none)

omit [Library] in
/-- **The ledger** is a note that every writer can have. -/
@[reducible] def Note.ledger : Note Ledger where
  fresh := {}
  equip _ _ l l₁ := l₁ = l
  after options event outcome l := l.after options.groupLimit event outcome
  merge := Ledger.merge
  broken n counted l l' l₁ :=
    l₁ = (l.flushed.adopt (l'.flushed.stripes.take n)).count (if counted then l'.counted else [])

/-- A **roster**: writers by their number, each with its ledger. -/
abbrev Roster : Type := Register Ledger

/-- **A session**: a run in which the ledgers are noted. -/
abbrev Session (rules : Rules) : Archive → Roster → Prop := Run Note.ledger rules

/-- **One note tracks another**: whatever happens to writers that keep some rules, notes that are
related stay so. -/
structure Note.Tracks {α β : Type} (note : Note α) (note' : Note β) (rules : Rules)
    (R : α → β → Prop) :
    Prop where
  fresh : R note.fresh note'.fresh
  equip : ∀ {w summary x x₁ y}, note.equip w summary x x₁ → R x y →
    ∃ y₁, note'.equip w summary y y₁ ∧ R x₁ y₁
  after : ∀ {options event outcome x y}, outcome = .ok () ∨ rules.refusals → R x y →
    R (note.after options event outcome x) (note'.after options event outcome y)
  merge : ∀ {x x' y y'}, R x y → R x' y' → R (note.merge x x') (note'.merge y y')
  broken : ∀ {n counted x x' x₁ y y'}, rules.breaks → note.broken n counted x x' x₁ → R x y →
    R x' y' →
    ∃ y₁, note'.broken n counted y y' y₁ ∧ R x₁ y₁

/-! ## (3) The same run with other notes -/

variable {α β : Type} {note : Note α} {note' : Note β} {R : α → β → Prop} {rules : Rules}
  {register : Register α} {register' : Register β} {archive : Archive} {i j : Nat} {w : Writer}

omit [Library] in
/-- Someone who is listed without some number has another number. -/
theorem listed_of_drop {list : Nat → Option α} {x : α}
    (h : Function.update list i none j = some x) : j ≠ i ∧ list j = some x := by
  by_cases hj : j = i
  · subst hj
    rw [Function.update_self] at h
    cases h
  · rw [Function.update_of_ne hj] at h
    exact ⟨hj, h⟩

omit [Library] in
/-- Someone who is listed stays listed when another leaves. -/
theorem listed_beside {list : Nat → Option α} {x : α} (h : list i = some x) (hij : i ≠ j) :
    Function.update list j none i = some x := by
  rw [Function.update_of_ne hij]
  exact h

omit [Library] in
/-- Someone who is listed is who joined, or was listed before. -/
theorem listed_of_join {list : Nat → Option α} {x y : α}
    (h : Function.update list i (some x) j = some y) : (j = i ∧ y = x) ∨
    (j ≠ i ∧ list j = some y) := by
  by_cases hj : j = i
  · subst hj
    rw [Function.update_self] at h
    cases h
    exact .inl ⟨rfl, rfl⟩
  · rw [Function.update_of_ne hj] at h
    exact .inr ⟨hj, h⟩

/-- A writer is not merged into itself. -/
theorem not_merge_self {w : Writer} (h : runAt (merge w) { writer := w, archive } = (.ok (), ws)) :
    False := by
  obtain ⟨-, -, hnames, -⟩ := checkMerge_ok (merge_ok h).1
  rw [Path.same_iff.mpr rfl] at hnames
  cases hnames

/-- Writers of which one was merged into the other have different numbers. -/
theorem merge_ne {list : Nat → Option (Writer × α)} {a b : Writer} {ours theirs : α}
    (ha : list i = some (a, ours)) (hb : list j = some (b, theirs))
    (hmerge : runAt (merge b) { writer := a, archive } = (.ok (), ws)) : i ≠ j := by
  rintro rfl
  cases ha.symm.trans hb
  exact not_merge_self hmerge

omit [Library] in
/-- **Registers agree**: whoever is in the first is in the second, and the notes are related. -/
def Register.Agrees (R : α → β → Prop) (register : Register α) (register' : Register β) : Prop :=
  ∀ i w x, register i = some (w, x) → ∃ y, register' i = some (w, y) ∧ R x y

omit [Library] in
/-- **Registers agree** when someone joins both. -/
theorem Register.Agrees.join {x : α} {y : β} (h : register.Agrees R register') (hnoted : R x y)
    (i : Nat) :
    Register.Agrees R (Function.update register i (some (w, x)))
      (Function.update register' i (some (w, y))) := by
  intro j b z hb
  rcases listed_of_join hb with ⟨rfl, hsame⟩ | ⟨hj, hb⟩
  · cases hsame
    exact ⟨y, Function.update_self _ _ _, hnoted⟩
  · obtain ⟨z', hb', hrelated⟩ := h j b z hb
    exact ⟨z', by rw [Function.update_of_ne hj, hb'], hrelated⟩

omit [Library] in
/-- **Registers agree** when someone leaves both. -/
theorem Register.Agrees.drop (h : register.Agrees R register') (i : Nat) :
    Register.Agrees R (Function.update register i none) (Function.update register' i none) := by
  intro j b z hb
  obtain ⟨hj, hb⟩ := listed_of_drop hb
  obtain ⟨z', hb', hrelated⟩ := h j b z hb
  exact ⟨z', listed_beside hb' hj, hrelated⟩

/-- **The same run, with other notes**: if one note tracks another, every writer has both. -/
theorem Run.tracked (h : Run note rules archive register) (htracks : note.Tracks note' rules R) :
    ∃ register', Run note' rules archive register' ∧ register.Agrees R register' := by
  -- the other note is kept beside, and says the same of every writer
  induction h with
  | start own => exact ⟨_, .start own, fun i w x hmember => nomatch hmember⟩
  | create i _ allowed step ih =>
      obtain ⟨register', hrun, hsame⟩ := ih
      exact ⟨_, hrun.create i allowed step, hsame.join htracks.fresh i⟩
  | unmade _ allowed step ih =>
      obtain ⟨register', hrun, hsame⟩ := ih
      exact ⟨_, hrun.unmade allowed step, hsame⟩
  | equip sink summary _ member noted ih =>
      obtain ⟨register', hrun, hsame⟩ := ih
      obtain ⟨y, member', hrelated⟩ := hsame _ _ _ member
      obtain ⟨y₁, noted', hrelated₁⟩ := htracks.equip noted hrelated
      exact ⟨_, hrun.equip sink summary member' noted', hsame.join hrelated₁ _⟩
  | event _ member allowed step ih =>
      obtain ⟨register', hrun, hsame⟩ := ih
      obtain ⟨y, member', hrelated⟩ := hsame _ _ _ member
      exact ⟨_, hrun.event member' allowed step, hsame.join (htracks.after allowed hrelated) _⟩
  | merge _ first second step ih =>
      obtain ⟨register', hrun, hsame⟩ := ih
      obtain ⟨y, first', hrelated⟩ := hsame _ _ _ first
      obtain ⟨y', second', hrelated'⟩ := hsame _ _ _ second
      exact ⟨_, hrun.merge first' second' step,
        (hsame.drop _).join (htracks.merge hrelated hrelated') _⟩
  | broken _ allowed first second distinct step flushed listed noted ih =>
      obtain ⟨register', hrun, hsame⟩ := ih
      obtain ⟨y, first', hrelated⟩ := hsame _ _ _ first
      obtain ⟨y', second', hrelated'⟩ := hsame _ _ _ second
      obtain ⟨y₁, noted', hrelated₁⟩ := htracks.broken allowed noted hrelated hrelated'
      exact ⟨_, hrun.broken allowed first' second' distinct step flushed listed noted',
        (hsame.drop _).join hrelated₁ _⟩
  | close _ member step ih =>
      obtain ⟨register', hrun, hsame⟩ := ih
      obtain ⟨y, member', -⟩ := hsame _ _ _ member
      exact ⟨_, hrun.close member' step, hsame.drop _⟩
  | drop i _ ih =>
      obtain ⟨register', hrun, hsame⟩ := ih
      exact ⟨_, hrun.drop i, hsame.drop i⟩

omit [Library] in
/-- **The ledger tracks** whatever is noted. -/
theorem Note.tracks_ledger (note : Note α) (rules : Rules) :
    note.Tracks .ledger rules fun _ _ => True where
  fresh := trivial
  equip _ _ := ⟨_, rfl, trivial⟩
  after _ _ := trivial
  merge _ _ := trivial
  broken _ _ _ _ := ⟨_, rfl, trivial⟩

/-- **Every writer has a ledger**, whatever is noted of it. -/
theorem Run.ledgers (h : Run note rules archive register) :
    ∃ roster, Session rules archive roster ∧ register.Agrees (fun _ _ => True) roster :=
  h.tracked (note.tracks_ledger rules)

/-! ## (4) What runs keep -/

/-- **What every step keeps** holds of every writer of a run and its note. -/
theorem Run.each {P : Writer → α → Prop} (h : Run note rules archive register)
    (hcreate : ∀ {options store w store'},
      Writer.create options store = (.ok w, store') → P w note.fresh)
    (hequip : ∀ {w sink summary x y}, note.equip w summary x y → P w x →
      P { w with sink, summaryStatistics := summary } y)
    (hevent : ∀ {event outcome ws ws' x},
      outcome = .ok () ∨ rules.refusals → Occurs event outcome ws ws' →
      P ws.writer x → P ws'.writer (note.after ws.writer.options event outcome x))
    (hmerge : ∀ {archive register i j a b x y ws}, Run note rules archive register →
      register i = some (a, x) → register j = some (b, y) →
      runAt (Writer.merge b) { writer := a, archive } = (.ok (), ws) → P a x → P b y →
      P ws.writer (note.merge x y))
    (hbroken : ∀ {a b w n counted x y z},
      rules.breaks → note.broken n counted x y z → P a x → P b y → P w z) :
    ∀ i w x, register i = some (w, x) → P w x := by
  -- whoever takes a step has a new note, and all others keep theirs
  induction h with
  | start own =>
      intro i w x hw
      cases hw
  | create i _ _ step ih =>
      intro j b y hb
      rcases listed_of_join hb with ⟨-, hsame⟩ | ⟨-, hb⟩
      · cases hsame
        exact hcreate step
      · exact ih j b y hb
  | unmade _ _ _ ih => exact ih
  | equip sink summary _ hmember hnoted ih =>
      intro j b y hb
      rcases listed_of_join hb with ⟨-, hsame⟩ | ⟨-, hb⟩
      · cases hsame
        exact hequip hnoted (ih _ _ _ hmember)
      · exact ih j b y hb
  | event _ hmember hallowed hoccurs ih =>
      intro j b y hb
      rcases listed_of_join hb with ⟨-, hsame⟩ | ⟨-, hb⟩
      · cases hsame
        exact hevent hallowed hoccurs (ih _ _ _ hmember)
      · exact ih j b y hb
  | merge hbefore hfirst hsecond step ih =>
      intro k c z hc
      rcases listed_of_join hc with ⟨-, hsame⟩ | ⟨-, hc⟩
      · cases hsame
        exact hmerge hbefore hfirst hsecond step (ih _ _ _ hfirst) (ih _ _ _ hsecond)
      · exact ih k c z (listed_of_drop hc).2
  | broken _ hallowed hfirst hsecond _ _ _ _ hnoted ih =>
      intro k c z hc
      rcases listed_of_join hc with ⟨-, hsame⟩ | ⟨-, hc⟩
      · cases hsame
        exact hbroken hallowed hnoted (ih _ _ _ hfirst) (ih _ _ _ hsecond)
      · exact ih k c z (listed_of_drop hc).2
  | close _ _ _ ih => exact fun j b y hb => ih j b y (listed_of_drop hb).2
  | drop i _ ih => exact fun j b y hb => ih j b y (listed_of_drop hb).2

/-! ## (5) Calls that succeed -/

omit [Library] in
/-- **What calls come to** that succeed. -/
def Note.perform (note : Note α) (options : WriterOptions) (calls : List Call) (x : α) : α :=
  calls.foldl (fun x call => note.after options call.event (.ok ()) x) x

omit [Library] in
/-- The first call comes first. -/
theorem Note.perform_cons (note : Note α) (options : WriterOptions) (call : Call)
    (calls : List Call) (x : α) : note.perform options (call :: calls) x =
      note.perform options calls (note.after options call.event (.ok ()) x) := rfl

omit [Library] in
/-- **The rows that were written** are behind those that were there. -/
@[simp] theorem rows_perform (options : WriterOptions) (calls : List Call) (l : Ledger) :
    (Note.ledger.perform options calls l).rows = l.rows ++ written calls := by
  induction calls generalizing l with
  | nil => exact (List.append_nil _).symm
  | cons call calls ih =>
      rw [Note.perform_cons, ih, Ledger.rows_after, Call.rows_event, List.append_assoc,
        ← written_cons]

omit [Library] in
/-- **The rows that were written** are counted. -/
@[simp] theorem counted_perform (options : WriterOptions) (calls : List Call) (l : Ledger) :
    (Note.ledger.perform options calls l).counted = l.counted ++ written calls := by
  induction calls generalizing l with
  | nil => exact (List.append_nil _).symm
  | cons call calls ih =>
      rw [Note.perform_cons, ih, Ledger.counted_after, Call.rows_event, List.append_assoc,
        ← written_cons]

end Writer

end ColumnFile
