import ColumnFile.Proofs.Writer.Learned
import ColumnFile.Proofs.Writer.Replay

/-! # A dictionary that was given up stays given up

Any number of writers share the files of one store, are flushed, merged and closed, and any call may
fail. Beside each writer goes its chronicle, which is not part of any program: the stripes that were
made of its own rows. For a column for which a dictionary was chosen, the stripes of the chronicle
record the dictionary first, and from some stripe on what took its place. The attributes of the
column tell whether there is such a stripe, and the file that is closed tells it too.

* **`Writer.Diary.chronicle`** — the chronicles that are noted of turns.
* **`Writer.Chronicle.Holds`** — what a chronicle tells is so; **`Writer.Chronicle.Sealed`** — what
  a file ends with.
* **`Writer.fallback_learned`** — the dictionary is given up for good. -/

namespace ColumnFile.Writer

open Writing

/-- A **chronicle**: the options of a writer, the file that was made for it, and the stripes that
were made of its own rows, each with the file that it is in. -/
structure Chronicle where
  /-- The options. -/
  options : WriterOptions := {}
  /-- The file. -/
  file : FileId := 0
  /-- The stripes, the first one first. -/
  own : List (FileId × StripeInformation) := []

/-- A chronicle with more stripes. -/
def Chronicle.add (c : Chronicle) (file : FileId) (infos : List StripeInformation) : Chronicle :=
  { c with own := c.own ++ infos.map (file, ·) }

/-- No stripes leave a chronicle as it is. -/
theorem Chronicle.add_nil (c : Chronicle) (file : FileId) : c.add file [] = c := by
  rw [add, List.map_nil, List.append_nil]

/-- **The encodings of a trial**: the dictionary for some stripes, and then what took its place. -/
def trialKinds (tried past : Nat) : List Encoding :=
  List.replicate tried .dictionary ++ List.replicate past Column.fallback.kind

/-- **One more stripe** of a trial. -/
theorem trialKinds_add {tried past : Nat} {givenUp : Bool} (hle : decide (0 < past) ≤ givenUp) :
    ∃ tried' past', trialKinds tried past ++ [Column.trialKind givenUp] = trialKinds tried' past' ∧
      decide (0 < past') = givenUp := by
  cases givenUp with
  | true =>
      refine ⟨tried, past + 1, ?_, decide_eq_true (Nat.succ_pos past)⟩
      rw [trialKinds, trialKinds, List.replicate_succ', List.append_assoc]
      rfl
  | false =>
      obtain rfl : past = 0 := by
        by_contra hover
        rw [decide_eq_true (Nat.pos_of_ne_zero hover)] at hle
        exact absurd hle (by decide)
      refine ⟨tried + 1, 0, ?_, rfl⟩
      rw [trialKinds, trialKinds, List.replicate_succ']
      simp [Column.trialKind]

variable [Library] {archive : Archive} {crew crew' : Crew} {chronicles : Nat → Chronicle}
  {c : Chronicle}
  {i j : Nat} {w : Writer} {ws ws' : Workspace} {member member' : Option Writer} {file : FileId}
  {info : StripeInformation} {columns after : ColumnSet}

/-! ## (1) Chronicles of a run -/

/-- **Chronicles** are noted. A stripe is made of a writer's own rows when it is listed in the
writer's turn; when the writer takes over another, this is so up to the flush with which that
begins. The rows that the other one kept are still its own: their stripe comes behind the copies of
its stripes, in the file of the first. -/
def Diary.chronicle : Diary Chronicle where
  blank := {}
  made options file := { options, file }
  task before after c := c.add c.file (after.writer.stripes.drop before.writer.stripes.length)
  merge other before after ours theirs :=
    let flushed := (runAt (commence other) before).2
    (ours.add ours.file (flushed.writer.stripes.drop before.writer.stripes.length),
      theirs.add ours.file
        (after.writer.stripes.drop (flushed.writer.stripes.length + other.stripes.length)))

/-! ## (2) What chronicles tell -/

/-- **A chronicle holds**: its stripes are settled, and for every column for which a dictionary was
chosen they record a trial; the writer goes on from there. -/
structure Chronicle.Holds (c : Chronicle) (crew : Crew) (member : Option Writer) : Prop where
  settled : ∀ s ∈ c.own, crew.Settled s.1 s.2.stop
  trial : ∀ k, c.options.Tries k → ∃ tried past,
    List.Forall₂ (fun s kind => s.2.Records crew.archive.store s.1 k kind) c.own
      (trialKinds tried past) ∧
      ∀ w, member = some w → w.columns.OnTrial k (decide (0 < past))
  options : ∀ w, member = some w → w.options = c.options
  valid : ∀ w, member = some w → w.options.validate = .ok ()
  home : ∀ w, member = some w → ∀ f, w.file = some f → f = c.file

omit [Library] in
/-- **Settled stripes** are left as they were recorded. -/
theorem Chronicle.Holds.records (h : c.Holds crew member) (hkeeps : crew.Keeps crew') {k : Nat}
    {kinds : List Encoding}
    (hkinds : List.Forall₂ (fun s kind => s.2.Records crew.archive.store s.1 k kind) c.own kinds) :
    List.Forall₂ (fun s kind => s.2.Records crew'.archive.store s.1 k kind) c.own kinds := by
  refine (partners_mem hkinds).imp ?_
  rintro s kind ⟨hs, -, hrecords⟩
  exact hrecords.keep (hkeeps.settled _ _ (h.settled s hs)).2

omit [Library] in
/-- **A chronicle goes on to hold** while its writer continues, or is gone. -/
theorem Chronicle.Holds.continue (h : c.Holds crew member) (hkeeps : crew.Keeps crew')
    (hmember : ∀ w', member' = some w' → ∃ w, member = some w ∧ Continues w w') :
    c.Holds crew' member' := by
  refine ⟨fun s hs => (hkeeps.settled _ _ (h.settled s hs)).1, fun k htries => ?_, fun w' hw' => ?_,
    fun w' hw' => ?_, fun w' hw' f hf => ?_⟩
  · obtain ⟨tried, past, hkinds, htrial⟩ := h.trial k htries
    refine ⟨tried, past, h.records hkeeps hkinds, fun w' hw' => ?_⟩
    obtain ⟨w, hw, hcontinues⟩ := hmember w' hw'
    exact hcontinues.trial k _ (h.options w hw ▸ htries) (htrial w hw)
  · obtain ⟨w, hw, hcontinues⟩ := hmember w' hw'
    exact hcontinues.options.trans (h.options w hw)
  · obtain ⟨w, hw, hcontinues⟩ := hmember w' hw'
    rw [hcontinues.options]
    exact h.valid w hw
  · obtain ⟨w, hw, hcontinues⟩ := hmember w' hw'
    exact h.home w hw f (hcontinues.file f hf)

omit [Library] in
/-- **A chronicle with one more stripe** holds: the stripe was made of what the writer kept, and the
writer, if it is still there, goes on with what was learned from it. -/
theorem Chronicle.Holds.add (h : c.Holds crew (some w)) (hkeeps : crew.Keeps crew')
    (hsettled : crew'.Settled file info.stop) (harchive : ws'.archive = crew'.archive)
    (hwritten : Written columns after file info ws')
    (hgrown : ∀ k givenUp, w.options.Tries k → w.columns.OnTrial k givenUp →
      columns.OnTrial k givenUp)
    (hmember : ∀ w', member' = some w' →
      w'.options = w.options ∧ (∀ f, w'.file = some f → w.file = some f) ∧
      ∀ k givenUp, w.options.Tries k → after.OnTrial k givenUp → w'.columns.OnTrial k givenUp) :
    (c.add file [info]).Holds crew' member' := by
  -- the stripes from before stay settled, and the new one is
  refine ⟨fun s hs => ?_, fun k htries => ?_, fun w' hw' => ?_, fun w' hw' => ?_,
    fun w' hw' f hf => ?_⟩
  · rcases List.mem_append.mp hs with hs | hs
    · exact (hkeeps.settled _ _ (h.settled s hs)).1
    · rw [List.mem_singleton.mp hs]
      exact hsettled
  · -- the stripe settles the trial where the writer stood, and never goes back
    have htries' : w.options.Tries k := h.options w rfl ▸ htries
    obtain ⟨tried, past, hkinds, htrial⟩ := h.trial k htries
    obtain ⟨givenUp, hle, hrecords, hafter⟩ :=
      hwritten.trial k _ (hgrown k _ htries' (htrial w rfl))
    obtain ⟨tried', past', heq, hover⟩ := trialKinds_add hle
    rw [harchive] at hrecords
    refine ⟨tried', past', ?_, fun w' hw' => ?_⟩
    · rw [← heq]
      exact List.rel_append (h.records hkeeps hkinds) (.cons hrecords .nil)
    · rw [hover]
      exact (hmember w' hw').2.2 k _ htries' hafter
  · exact (hmember w' hw').1.trans (h.options w rfl)
  · rw [(hmember w' hw').1]
    exact h.valid w rfl
  · exact h.home w rfl f ((hmember w' hw').2.1 f hf)

/-- **A chronicle is sealed**: if the writer is closed, its footer is where its stripes end, and
stays there. -/
def Chronicle.Sealed (c : Chronicle) (crew : Crew) (member : Option Writer) : Prop :=
  ∀ w, member = some w → w.closed = true →
    crew.Settled c.file (w.offset + (tail w.footer).length) ∧
      (crew.archive.store.get c.file).slice? w.offset (tail w.footer).length = some (tail w.footer)

/-- **A file stays sealed** when nothing happens to its writer, or it is gone. -/
theorem Chronicle.Sealed.keep (h : c.Sealed crew member) (hkeeps : crew.Keeps crew')
    (hmember : ∀ w', member' = some w' → w'.closed = true → ∃ w, member = some w ∧ w.closed = true ∧
      w'.offset = w.offset ∧ w'.footer = w.footer) : c.Sealed crew' member' := by
  intro w' hw' hclosed'
  obtain ⟨w, hw, hclosed, hoffset, hfooter⟩ := hmember w' hw' hclosed'
  obtain ⟨hsettled, hslice⟩ := h w hw hclosed
  obtain ⟨hsettled', htake⟩ := hkeeps.settled _ _ hsettled
  rw [hoffset, hfooter]
  exact ⟨hsettled', Bytes.slice?_of_take htake (Nat.le_refl _) hslice⟩

omit [Library] in
/-- **Octets of its file** that a writer leaves alone behind its turn are settled. -/
theorem Crew.Steady.settle (h : crew.Steady) (hmember : crew.member i = some w)
    (hfile : w.file = some file)
    (hcount : ws.archive.store.contents.length = crew.archive.store.contents.length) {n : Nat}
    (hleaves : ws.writer.Leaves file n) (hn : n ≤ (ws.archive.store.get file).length) :
    Crew.Settled { archive := ws.archive, member := Function.update crew.member i (some ws.writer) }
      file n := by
  refine ⟨?_, hn, fun j other hother => ?_⟩
  · show file < ws.archive.store.contents.length
    rw [hcount]
    exact ((h.sound i w hmember).file file hfile).1
  · rcases listed_of_join hother with ⟨-, rfl⟩ | ⟨hj, hother⟩
    · exact hleaves
    · exact leaves_of_not_owns (h.apart i j w other hmember hother (Ne.symm hj) file (.inl hfile)) n

/-- **A crew is told of**: all its chronicles hold and are sealed. -/
structure Crew.Told (crew : Crew) (chronicles : Nat → Chronicle) : Prop where
  holds : ∀ i, (chronicles i).Holds crew (crew.member i)
  sealed : ∀ i, (chronicles i).Sealed crew (crew.member i)

/-- **A crew is told of** while its members continue. -/
theorem Crew.Told.continue (h : crew.Told chronicles) (hkeeps : crew.Keeps crew')
    (hmember : ∀ i w', crew'.member i = some w' → ∃ w, crew.member i = some w ∧ Continues w w' ∧
      (w'.closed = true → w.closed = true ∧ w'.offset = w.offset ∧ w'.footer = w.footer)) :
    crew'.Told chronicles := by
  constructor
  · intro i
    refine (h.holds i).continue hkeeps fun w' hw' => ?_
    obtain ⟨w, hw, hcontinues, -⟩ := hmember i w' hw'
    exact ⟨w, hw, hcontinues⟩
  · intro i
    refine (h.sealed i).keep hkeeps fun w' hw' hclosed => ?_
    obtain ⟨w, hw, -, hsame⟩ := hmember i w' hw'
    exact ⟨w, hw, hsame hclosed⟩

/-- **A crew is told of** behind the turn of one of its members, if this one is. -/
theorem Crew.Told.turn (h : crew.Told chronicles)
    (hkeeps : crew.Keeps { archive, member := Function.update crew.member i member' })
    (hholds : c.Holds { archive, member := Function.update crew.member i member' } member')
    (hsealed : c.Sealed { archive, member := Function.update crew.member i member' } member') :
    Crew.Told { archive, member := Function.update crew.member i member' }
      (Function.update chronicles i c) := by
  constructor
  · intro j
    dsimp only
    by_cases hj : j = i
    · subst hj
      rw [Function.update_self, Function.update_self]
      exact hholds
    · rw [Function.update_of_ne hj, Function.update_of_ne hj]
      exact (h.holds j).continue hkeeps fun w hw => ⟨w, hw, (still_refl w).toContinues⟩
  · intro j
    dsimp only
    by_cases hj : j = i
    · subst hj
      rw [Function.update_self, Function.update_self]
      exact hsealed
    · rw [Function.update_of_ne hj, Function.update_of_ne hj]
      exact (h.sealed j).keep hkeeps fun w hw hclosed => ⟨w, hw, hclosed, rfl, rfl⟩

/-- **A chronicle that is revised**: that of someone who is gone may get more stripes. -/
theorem Crew.Told.revise (h : crew.Told chronicles) (hgone : crew.member i = none)
    (hholds : c.Holds crew none) :
    crew.Told (Function.update chronicles i c) := by
  constructor
  · intro j
    by_cases hj : j = i
    · subst hj
      rw [Function.update_self, hgone]
      exact hholds
    · rw [Function.update_of_ne hj]
      exact h.holds j
  · intro j
    by_cases hj : j = i
    · subst hj
      rw [hgone]
      exact fun w hw => nomatch hw
    · rw [Function.update_of_ne hj]
      exact h.sealed j

/-! ## (3) Turns -/

/-- **A new writer** begins a chronicle. -/
theorem Crew.Told.create {options : WriterOptions} {store : Store} (h : crew.Told chronicles)
    (hsteady : crew.Steady) (hcreate : create options crew.archive.store = (.ok w, store))
    (hfile : w.file = some file) :
    Crew.Told { archive := { crew.archive with store },
                member := Function.update crew.member i (some w) }
      (Function.update chronicles i { options, file }) := by
  obtain ⟨_, _, _, columns, hvalid, -, -, hcolumns, rfl⟩ := create_ok hcreate
  refine h.turn (hsteady.join i hcreate)
    ⟨(fun s hs => nomatch hs), fun k htries => ?_, ?_, ?_, ?_⟩ ?_
  · refine ⟨0, 0, .nil, fun w' hw' => ?_⟩
    cases hw'
    exact freshColumns_onTrial htries rfl hcolumns
  · intro w' hw'
    cases hw'
    rfl
  · intro w' hw'
    cases hw'
    exact hvalid
  · intro w' hw' f hf
    cases hw'
    exact Option.some.inj (hf.symm.trans hfile)
  · intro w' hw' hclosed
    cases hw'
    cases hclosed

omit [Library] in
/-- **What a writer lists** in its turn goes into its chronicle. -/
theorem Chronicle.Holds.lists (h : c.Holds crew (some w)) (hsteady : crew.Steady)
    (hmember : crew.member i = some w)
    (hproceeds : Proceeds { writer := w, archive := crew.archive } ws)
    (hlists : Lists { writer := w, archive := crew.archive } ws) :
    (c.add c.file (ws.writer.stripes.drop w.stripes.length)).Holds
      { archive := ws.archive, member := Function.update crew.member i (some ws.writer) }
        (some ws.writer) := by
  have hkeeps := hsteady.proceed hmember hproceeds
  cases hlists with
  | still hstill =>
      -- nothing is listed, so the chronicle stays as it is
      rw [show ws.writer.stripes = w.stripes from hstill.stripes, List.drop_length, c.add_nil]
      refine h.continue hkeeps fun w' hw' => ?_
      cases hw'
      exact ⟨w, rfl, hstill.toContinues⟩
  | @listed file info columns after home options stripes grown written learned =>
      rw [show ws.writer.stripes = w.stripes ++ [info] from stripes, List.drop_left,
        ← h.home w rfl file home]
      refine h.add hkeeps
        (hsteady.settle hmember home hproceeds.count written.leaves written.within) rfl
          written grown
        fun w' hw' => ?_
      cases hw'
      exact ⟨options, hproceeds.file, learned⟩

/-- **A writer becomes closed** by a close that comes to the end of the file, and in no other
way. -/
theorem Task.closing {outcome : Except Fault Unit} (task : Task)
    (h : runAt task.step ws = (outcome, ws')) (hown : ws.archive.store.foreign = false)
    (hopen : ws.writer.closed = false) (hclosed : ws'.writer.closed = true) :
    ∃ w₁, runAt Writer.flush ws = (.ok (), w₁) ∧ w₁.writer.closed = false ∧ Ends w₁ ws' := by
  cases task with
  | write row => cases hclosed.symm.trans (write_notes row h hown hopen).2
  | flush => cases hclosed.symm.trans (flush_notes h hown hopen).2
  | close =>
      rcases close_cases h with ⟨hwas, -, -⟩ | ⟨e, -, hflush⟩ | ⟨w₁, hflush, hends⟩
      · cases hopen.symm.trans hwas
      · cases hclosed.symm.trans (flush_notes hflush hown hopen).2
      · exact ⟨w₁, hflush, (flush_notes hflush hown hopen).2, hends⟩

/-- **The end of a file** is where the stripes end, and the writer leaves all of the file alone. -/
theorem Ends.there (h : Ends ws ws') (hsound : ws.writer.Sound ws.archive.store)
    (hopen : ws.writer.closed = false) (hclosed : ws'.writer.closed = true) :
    ∃ file, ws.writer.file = some file ∧ (∀ n, ws'.writer.Leaves file n) ∧
      (ws'.archive.store.get file).slice? ws'.writer.offset (tail ws'.writer.footer).length =
        some (tail ws'.writer.footer) := by
  rcases h with ⟨-, rfl⟩ | ⟨file, store, closed, summaries, hfile, rfl, hcontents, -⟩
  · cases hopen.symm.trans hclosed
  · obtain ⟨hlt, hposition⟩ := hsound.file file hfile
    have hslice := Bytes.slice?_overwrite (tail ws.writer.footer) hposition
    rw [← Store.get_write_self hsound.foreign hlt, Store.get, ← hcontents] at hslice
    exact ⟨file, hfile, fun n => ⟨(fun hf => by cases hf), fun ht => by cases ht⟩, hslice⟩

/-- **A file is sealed** by the task that closes it. -/
theorem Chronicle.Sealed.task {outcome : Except Fault Unit} (h : c.Sealed crew (some w))
    (task : Task) (hstep : runAt task.step { writer := w, archive := crew.archive } = (outcome, ws))
    (hsteady : crew.Steady) (hmember : crew.member i = some w) (hholds : c.Holds crew (some w)) :
    c.Sealed { archive := ws.archive, member := Function.update crew.member i (some ws.writer) }
      (some ws.writer) := by
  have hsound := hsteady.sound i w hmember
  have hproceeds := task.safe hstep hsound
  cases hclosed : w.closed with
  | true =>
      obtain rfl := task.idle hstep hclosed
      refine h.keep (hsteady.proceed hmember hproceeds) fun w' hw' hclosed' => ?_
      cases hw'
      exact ⟨w, rfl, hclosed', rfl, rfl⟩
  | false =>
      intro w' hw' hclosed'
      cases hw'
      obtain ⟨w₁, hflush, hopen, hends⟩ := task.closing hstep hsteady.own hclosed hclosed'
      have hproceeds₁ := flush_safe hflush hsound
      obtain ⟨file, hfile, hleaves, hslice⟩ := hends.there hproceeds₁.sound hopen hclosed'
      -- the file is the one that the writer always had
      have hours : w.file = some file := hproceeds₁.file file hfile
      rw [← hholds.home w rfl file hours]
      exact ⟨hsteady.settle hmember hours hproceeds.count (hleaves _) (Bytes.le_of_slice? hslice),
        hslice⟩

/-- **A crew is told of** behind a task. -/
theorem Crew.Told.task {outcome : Except Fault Unit} (h : crew.Told chronicles)
    (hsteady : crew.Steady) (task : Task) (hmember : crew.member i = some w)
    (hstep : runAt task.step { writer := w, archive := crew.archive } = (outcome, ws)) :
    Crew.Told { archive := ws.archive, member := Function.update crew.member i (some ws.writer) }
      (Function.update chronicles i
        ((chronicles i).add (chronicles i).file (ws.writer.stripes.drop w.stripes.length))) := by
  have hsound := hsteady.sound i w hmember
  have hproceeds := task.safe hstep hsound
  have hholds : (chronicles i).Holds crew (some w) := hmember ▸ h.holds i
  have hsealed : (chronicles i).Sealed crew (some w) := hmember ▸ h.sealed i
  refine h.turn (hsteady.proceed hmember hproceeds) ?_
    (hsealed.task task hstep hsteady hmember hholds)
  exact hholds.lists hsteady hmember hproceeds (task.lists hstep (hholds.valid w rfl) hsound)

/-! ## (4) Merges -/

variable {a b : Writer} {begun outcome : Except Fault Unit} {w₁ : Workspace}

omit [Library] in
/-- **The rows that a writer kept** when it was merged go into its chronicle, if they are listed. -/
theorem Chronicle.Holds.leftover (h : c.Holds crew (some b)) (hkeeps : crew.Keeps crew')
    (hleftover : Leftover b w₁ ws) (harchive : ws.archive = crew'.archive)
    (hhome : ∀ f, w₁.writer.file = some f → f = file)
    (hsettled : ∀ f n, w₁.writer.file = some f → ws.writer.Leaves f n →
      n ≤ (ws.archive.store.get f).length →
      crew'.Settled f n) :
    (c.add file (ws.writer.stripes.drop (w₁.writer.stripes.length + b.stripes.length))).Holds
      crew' none := by
  cases hleftover with
  | none listed =>
      rw [listed, c.add_nil]
      exact h.continue hkeeps fun w hw => nomatch hw
  | taken home listed written =>
      rw [listed, ← hhome _ home]
      exact h.add hkeeps (hsettled _ _ home written.leaves written.within) harchive written
        (fun _ _ _ htrial => htrial) fun w hw => nomatch hw

/-- **A file stays sealed** when its writer is asked to take over another: it refuses. -/
theorem Chronicle.Sealed.merge (h : c.Sealed crew (some a))
    (hstep : runAt (Writer.merge b) { writer := a, archive := crew.archive } = (outcome, ws))
    (hown : crew.archive.store.foreign = false) (hkeeps : crew.Keeps crew') :
    c.Sealed crew' (some ws.writer) := by
  cases hclosed : a.closed with
  | true =>
      obtain rfl := merge_idle hstep hclosed
      refine h.keep hkeeps fun w' hw' hclosed' => ?_
      cases hw'
      exact ⟨a, rfl, hclosed', rfl, rfl⟩
  | false =>
      intro w' hw' hclosed'
      cases hw'
      cases hclosed'.symm.trans (merge_notes b hstep hown hclosed).2

/-- **A crew is told of** without one of its members. -/
theorem Crew.Told.drop (h : crew.Told chronicles) (hsteady : crew.Steady) (i : Nat) :
    Crew.Told { crew with member := Function.update crew.member i none } chronicles :=
  h.continue (hsteady.drop i) fun _ w hw =>
    ⟨w, (listed_of_drop hw).2, (still_refl w).toContinues, fun hclosed => ⟨hclosed, rfl, rfl⟩⟩

/-- **What the first writer of a merge lists** up to the flush with which the merge begins goes into
its chronicle. Then the second one comes over, into the file of the first, where octets are settled
that the first leaves alone. -/
theorem Chronicle.Holds.merge (h : c.Holds crew (some a)) (hsteady : crew.Steady)
    (hmember : crew.member i = some a) (hother : b.Directory)
    (hbegin : runAt (commence b) { writer := a, archive := crew.archive } = (begun, w₁))
    (hstep : runAt (Writer.merge b) { writer := a, archive := crew.archive } = (outcome, ws))
    (hcrew' : crew' = { archive := ws.archive,
                        member := Function.update crew.member i (some ws.writer) }) :
    crew.Keeps crew' ∧ (c.add c.file (w₁.writer.stripes.drop a.stripes.length)).Holds crew'
    (some ws.writer) ∧
      Leftover b w₁ ws ∧ ∀ f n, w₁.writer.file = some f → f = c.file ∧
        (ws.writer.Leaves f n → n ≤ (ws.archive.store.get f).length → crew'.Settled f n) := by
  have hsound := hsteady.sound i a hmember
  have hproceeds₁ := commence_safe b hbegin hsound
  have hkeeps₁ := hsteady.proceed hmember hproceeds₁
  have hholds₁ := h.lists hsteady hmember hproceeds₁ (commence_lists hbegin (h.valid a rfl) hsound)
  obtain ⟨hproceeds', hcontinues, hleftover⟩ := merge_leftover hbegin hstep hsound hother
  -- the crew behind the flush, in which the first writer is as the second one finds it
  have hmember₁ : Function.update crew.member i (some w₁.writer) i = some w₁.writer :=
    Function.update_self ..
  have hkeeps' := hkeeps₁.steady.proceed hmember₁ hproceeds'
  have hsettled := fun f n (hfile : w₁.writer.file = some f) (hleaves : ws.writer.Leaves f n) =>
    hkeeps₁.steady.settle hmember₁ hfile hproceeds'.count hleaves
  dsimp only at hkeeps' hsettled
  rw [Function.update_idem, ← hcrew'] at hkeeps' hsettled
  refine ⟨hkeeps₁.trans hkeeps', hholds₁.continue hkeeps' fun w' hw' => ?_, hleftover,
    fun f n hfile => ?_⟩
  · cases hw'
    exact ⟨w₁.writer, rfl, hcontinues⟩
  · exact ⟨hholds₁.home w₁.writer rfl f hfile, hsettled f n hfile⟩

/-- **A crew is told of** behind a merge: of the first writer up to the flush with which it begins,
and of the second one up to the rows that it kept. -/
theorem Crew.Told.merge (h : crew.Told chronicles) (hsteady : crew.Steady)
    (hfirst : crew.member i = some a) (hsecond : crew.member j = some b) (htwo : i ≠ j)
    (hbegin : runAt (commence b) { writer := a, archive := crew.archive } = (begun, w₁))
    (hstep : runAt (Writer.merge b) { writer := a, archive := crew.archive } = (outcome, ws)) :
    Crew.Told
      { archive := ws.archive, member := Function.update (Function.update crew.member j none) i
          (some ws.writer) }
      (Function.update
        (Function.update chronicles j ((chronicles j).add (chronicles i).file
          (ws.writer.stripes.drop (w₁.writer.stripes.length + b.stripes.length)))) i
        ((chronicles i).add (chronicles i).file (w₁.writer.stripes.drop a.stripes.length))) := by
  have hdrops := hsteady.drop j
  have htold := h.drop hsteady j
  have hours : Function.update crew.member j none i = some a := listed_beside hfirst htwo
  have hholds : (chronicles i).Holds { crew with member := Function.update crew.member j none }
    (some a) :=
    hours ▸ htold.holds i
  have hsealed : (chronicles i).Sealed { crew with member := Function.update crew.member j none }
    (some a) :=
    hours ▸ htold.sealed i
  have hholdsⱼ : (chronicles j).Holds crew (some b) := hsecond ▸ h.holds j
  obtain ⟨hkeeps, hmerged, hleftover, hsettled⟩ :=
    hholds.merge hdrops.steady hours (hsteady.sound j b hsecond).toDirectory hbegin hstep rfl
  -- the first chronicle is told in its turn, and that of the writer who is gone then
  rw [Function.update_comm htwo.symm _ _ chronicles]
  refine Crew.Told.revise (htold.turn hkeeps hmerged (hsealed.merge hstep hsteady.own hkeeps)) ?_ ?_
  · show Function.update (Function.update crew.member j none) i (some ws.writer) j = none
    rw [Function.update_of_ne htwo.symm, Function.update_self]
  · exact hholdsⱼ.leftover (hdrops.trans hkeeps) hleftover rfl (fun f hf => (hsettled f 0 hf).1)
      fun f n hf => (hsettled f n hf).2

/-! ## (5) Runs -/

/-- **Every state that is reached** is told of. -/
theorem Reached.told (hown : archive.store.foreign = false)
    (h : Reached Diary.chronicle archive crew chronicles) :
    crew.Told chronicles := by
  induction h with
  | start =>
      refine ⟨fun i => ⟨(fun s hs => nomatch hs), fun k htries => ?_, ?_, ?_, ?_⟩, fun i w hw =>
        nomatch hw⟩
      · exact ⟨0, 0, .nil, fun w hw => nomatch hw⟩
      · exact fun w hw => nomatch hw
      · exact fun w hw => nomatch hw
      · exact fun w hw => nomatch hw
  | create i before step home ih => exact ih.create (before.steady hown) step home
  | @unmade crew _ _ _ _ before step ih =>
      have hkeeps := (before.steady hown).grow (create_failed (before.steady hown).own step)
      exact ih.continue hkeeps fun _ w hw =>
        ⟨w, hw, (still_refl w).toContinues, fun hclosed => ⟨hclosed, rfl, rfl⟩⟩
  | equip sink summary before member ih =>
      refine ih.continue ((Turn.equip sink summary member).keeps (before.steady hown)) fun k w hw =>
        ?_
      rcases listed_of_join hw with ⟨rfl, rfl⟩ | ⟨-, hw⟩
      · exact ⟨_, member, continues_of_eq rfl (fun _ hf => hf) rfl, fun hclosed =>
          ⟨hclosed, rfl, rfl⟩⟩
      · exact ⟨w, hw, (still_refl w).toContinues, fun hclosed => ⟨hclosed, rfl, rfl⟩⟩
  | task task before member step ih => exact ih.task (before.steady hown) task member step
  | merge before first second two step noted ih =>
      cases noted
      exact ih.merge (before.steady hown) first second two rfl step
  | drop i before ih => exact ih.drop (before.steady hown) i

/-- A close that succeeds leaves the writer closed. -/
theorem closed_of_close (h : runAt close ws = (.ok (), ws')) : ws'.writer.closed = true := by
  cases hclosed : ws.writer.closed with
  | true =>
      rw [Task.close.idle h hclosed]
      exact hclosed
  | false =>
      obtain ⟨_, _, _, -, -, rfl, -⟩ := close_ok hclosed h
      rfl

/-- **A dictionary is given up for good.** Any number of writers share the files of one store of
one's own, and whatever they are asked for, in any order, they do it or fail. For a column of texts
or octets for which a dictionary was chosen, the stripes that were made of a writer's own rows
record the dictionary, up to some stripe, and from there on that the values are compressed. The
attributes of the column tell whether there is a stripe of the second sort, in every state; neither
stripes that were refused nor those of other writers count. If the writer is closed, which it is
behind a close that succeeds, the footer of its file tells it as well. -/
theorem fallback_learned (hown : archive.store.foreign = false)
    (hreached : Reached Diary.chronicle archive crew chronicles) {k : Nat} {spec : ColumnSpec}
    (hspec : (chronicles i).options.schema[k]? = some spec)
    (hvaries : spec.kind = .string ∨ spec.kind = .bytes)
    (hchoice : ((chronicles i).options.choice k).kind = .dictionary) :
    ∃ tried past,
      List.Forall₂ (fun s kind => s.2.Records crew.archive.store s.1 k kind) (chronicles i).own
        (List.replicate tried .dictionary ++ List.replicate past .zstd) ∧
      ∀ w, crew.member i = some w →
        w.options = (chronicles i).options ∧
        w.columns.attributes[k]? = some (if past = 0 then [] else [("dict.fallback", "zstd")]) ∧
        (w.closed = true → ∃ footer,
          (crew.archive.store.get (chronicles i).file).slice? w.offset (tail footer).length =
            some (tail footer) ∧
          footer.attributes[k]? = some (if past = 0 then [] else [("dict.fallback", "zstd")])) ∧
        ∀ ws, runAt close { writer := w, archive := crew.archive } = (.ok (), ws) →
        ws.writer.closed = true := by
  -- a column of fixed width has no trial, which strings and octets are not
  have htold := hreached.told hown
  have hwidth : spec.kind.fixedWidth = none := by
    rcases hvaries with hkind | hkind
    · rw [hkind]
      rfl
    · rw [hkind]
      rfl
  obtain ⟨tried, past, hkinds, htrial⟩ := (htold.holds i).trial k ⟨spec, hspec, hwidth, hchoice⟩
  refine ⟨tried, past, hkinds, fun w hw => ?_⟩
  have hattributes : w.columns.attributes[k]? =
    some (if past = 0 then [] else [("dict.fallback", "zstd")]) := by
    rw [(htrial w hw).attributes_eq]
    cases past with
    | zero => rfl
    | succ n => rfl
  refine ⟨(htold.holds i).options w hw, hattributes, fun hclosed => ?_, fun ws h =>
    closed_of_close h⟩
  exact ⟨w.footer, (htold.sealed i w hw hclosed).2, hattributes⟩

/-- A column of texts for which a dictionary was chosen. -/
def dictionaryColumn (fileName : String) : WriterOptions :=
  { textColumn fileName none with encodings := [{ kind := .dictionary }], log := true }

/-- Texts that are all the same. -/
def sameTexts : List Call := List.replicate 5 (.write [.ofString "z"])

omit [Library] in
/-- The dictionary pays for the first stripe, the next one is refused, the one behind it gives the
dictionary up, and another writer, for whom it pays, is merged behind that. The dictionary is not
tried again for the last one. -/
theorem fallback_learned_closed :
    ∃ crew chronicles w tried past, @Reached .verbatim _ (@Diary.chronicle .verbatim)
      {} crew chronicles ∧ crew.member 0 = some w ∧
      w.stripes.length = 4 ∧ past ≠ 0 ∧
      List.Forall₂ (fun s kind => s.2.Records crew.archive.store s.1 0 kind) (chronicles 0).own
        (List.replicate tried .dictionary ++ List.replicate past .zstd) ∧
      ∃ footer,
        (crew.archive.store.get (chronicles 0).file).slice? w.offset (tail footer).length =
          some (tail footer) ∧
        footer.attributes[0]? = some [("dict.fallback", "zstd")] := by
  -- the calls are evaluated; what the stripes record follows from the chronicle
  have hrun : ∃ a b store store' wa wr wb wk wm wd wc, create (dictionaryColumn "f") {} =
    (.ok a, store) ∧
      create (dictionaryColumn "g") store = (.ok b, store') ∧
      wa = runAt (@perform .verbatim (sameTexts ++ [.flush, .write [.ofString "x"]]))
        { writer := { a with sink := some (refuses 1) }, archive := { store := store' } } ∧
        wa.1 = .ok () ∧
      wr = runAt (@flush .verbatim) wa.2 ∧ wr.1 = .error (.reported .io "wal refused") ∧
      wb = runAt (@perform .verbatim sameTexts) { writer := b, archive := wr.2.archive } ∧
        wb.1 = .ok () ∧
      wk = runAt (@perform .verbatim [.write [.ofString "y"]])
        { writer := wr.2.writer, archive := wb.2.archive } ∧ wk.1 = .ok () ∧
      wm = runAt (@merge .verbatim wb.2.writer) wk.2 ∧ wm.1 = .ok () ∧
      wd = runAt (@perform .verbatim sameTexts) wm.2 ∧ wd.1 = .ok () ∧
      wc = runAt (@close .verbatim) wd.2 ∧ wc.1 = .ok () ∧ wc.2.writer.stripes.length = 4 ∧
      wc.2.writer.options = dictionaryColumn "f" ∧ wc.2.writer.closed = true ∧
      wc.2.writer.columns.attributes[0]? = some [("dict.fallback", "zstd")] :=
    ⟨_, _, _, _, _, _, _, _, _, _, _, rfl, rfl, rfl, by decide +kernel, rfl, by decide +kernel, rfl,
      by decide +kernel, rfl, by decide +kernel, rfl, by decide +kernel, rfl, by decide +kernel,
      rfl, by decide +kernel, by decide +kernel, by decide +kernel, by decide +kernel,
      by decide +kernel⟩
  obtain ⟨a, b, store, store', wa, wr, wb, wk, wm, wd, wc, ha, hb, hwa, hwa', hwr, hwr', hwb, hwb',
    hwk, hwk', hwm, hwm', hwd, hwd', hwc, hwc', hlength, hoptions, hclosed, hlearned⟩ := hrun
  -- the same calls as turns of a crew
  have hmade : Relation.ReflTransGen (@Turn .verbatim) (.start {}) _ :=
    ((Relation.ReflTransGen.single (@Turn.create .verbatim (.start {}) _ _ _ 0 ha)).tail
      (@Turn.create .verbatim _ _ _ _ 1 hb)).tail
      (@Turn.equip .verbatim _ 0 a (some (refuses 1)) a.summaryStatistics rfl)
  have hfirst := hmade.trans (@turns_of_perform .verbatim _ _ 0 _ wa.2 rfl (runAt_eq hwa hwa'))
  have hrefused :=
    hfirst.tail (@Turn.task .verbatim _ 0 wa.2.writer _ _ .flush rfl (runAt_eq hwr hwr'))
  have hsecond := hrefused.trans (@turns_of_perform .verbatim _ _ 1 b wb.2 rfl (runAt_eq hwb hwb'))
  have hkept := hsecond.trans
    (@turns_of_perform .verbatim _ _ 0 wr.2.writer wk.2 rfl (runAt_eq hwk hwk'))
  have hmerged :=
    hkept.tail (@Turn.merge .verbatim _ 0 1 _ _ _ _ rfl rfl (by decide) (runAt_eq hwm hwm'))
  have hlast := hmerged.trans
    (@turns_of_perform .verbatim _ _ 0 wm.2.writer wd.2 rfl (runAt_eq hwd hwd'))
  have hended :=
    hlast.tail (@Turn.task .verbatim _ 0 wd.2.writer _ _ .close rfl (runAt_eq hwc hwc'))
  obtain ⟨chronicles, hreached⟩ :=
    @reached_of_turns .verbatim _ _ (@Diary.chronicle .verbatim) _ hended
  have hsame : (chronicles 0).options = dictionaryColumn "f" := by
    rw [← hoptions]
    have htold := @Reached.told .verbatim _ _ _ rfl hreached
    exact ((@Crew.Told.holds .verbatim _ _ htold 0).options wc.2.writer rfl).symm
  obtain ⟨tried, past, hkinds, hmember⟩ :=
    @fallback_learned .verbatim {} _ chronicles 0 rfl hreached 0
    (.ofKind "note" .string) (by rw [hsame]; rfl) (.inl rfl) (by rw [hsame]; rfl)
  obtain ⟨-, hattributes, hfooter, -⟩ := hmember wc.2.writer rfl
  -- the attribute is there, so some stripe gave the dictionary up
  have hover : past ≠ 0 := by
    rintro rfl
    cases hattributes.symm.trans hlearned
  rw [if_neg hover] at hfooter
  exact ⟨_, chronicles, wc.2.writer, tried, past, hreached, rfl, hlength, hover, hkinds,
    hfooter hclosed⟩

end ColumnFile.Writer
