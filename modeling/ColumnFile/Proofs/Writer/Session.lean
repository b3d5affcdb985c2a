import ColumnFile.Proofs.Writer.Run

/-! # Sessions of writers

Runs in which the ledgers of the writers are noted.

* **`Writer.Roster.Held`**, **`Writer.Session.held`** — every writer follows its ledger, and no two
  share a file.
* **`Writer.Session.leads`** — paths lead to files when no name is another's with the ending of a
  file of values.
* **`Writer.Session.clean`**, **`Writer.Session.backed`** — the ledgers of sessions in which no call
  failed, and of those in which only stripes were refused.
* **`Writer.Run.perform`**, **`Writer.Session.mergeFailed`** — calls that succeed lead from one run
  to another, and so does a merge that fails.
* **`Writer.Session.filed`** — the file of a writer that was closed has the batches of its
  ledger. -/

namespace ColumnFile.Writer

open Writing

variable [Library] {rules : Rules} {roster : Roster} {archive archive' : Archive} {i j : Nat}
  {w : Writer}
  {l l' : Ledger} {ws ws' : Workspace} {outcome : Except Fault Unit} {e : Fault}

/-! ## (1) The invariant -/

omit [Library] in
/-- Writers share no file, in either order. -/
theorem Apart.symm {w other : Writer} (h : w.Apart other) : other.Apart w :=
  fun file howns hown => h file hown howns

/-- **A roster is held**: every writer follows its ledger, and no two writers share a file. -/
structure Roster.Held (roster : Roster) (archive : Archive) : Prop where
  own : archive.store.foreign = false
  follows : ∀ i w l, roster i = some (w, l) → w.Follows archive.store l
  apart : ∀ i j a b l l', roster i = some (a, l) → roster j = some (b, l') → i ≠ j → a.Apart b

/-- A roster is held without one of its writers. -/
theorem Roster.Held.drop (h : roster.Held archive) (i : Nat) :
    Roster.Held (Function.update roster i none) archive := by
  refine ⟨h.own, ?_, ?_⟩
  · intro j b l hb
    exact h.follows j b l (listed_of_drop hb).2
  · intro j k a b l l' ha hb
    exact h.apart j k a b l l' (listed_of_drop ha).2 (listed_of_drop hb).2

/-- **A writer joins** a roster when it shares no file with the others. -/
theorem Roster.Held.join (h : Roster.Held (Function.update roster i none) archive)
    (hfollows : w.Follows archive.store l)
    (hapart : ∀ j b l', j ≠ i → roster j = some (b, l') → w.Apart b) :
    Roster.Held (Function.update roster i (some (w, l))) archive := by
  refine ⟨h.own, ?_, ?_⟩
  · intro j b l' hb
    rcases listed_of_join hb with ⟨-, hsame⟩ | ⟨hj, hb⟩
    · cases hsame
      exact hfollows
    · exact h.follows j b l' (listed_beside hb hj)
  · intro j k a b l₁ l₂ ha hb hne
    rcases listed_of_join ha with ⟨rfl, hsame⟩ | ⟨hj, hfirst⟩
    · cases hsame
      rcases listed_of_join hb with ⟨rfl, -⟩ | ⟨hk, hsecond⟩
      · exact absurd rfl hne
      · exact hapart k b l₂ hk hsecond
    · rcases listed_of_join hb with ⟨rfl, hsame⟩ | ⟨hk, hsecond⟩
      · cases hsame
        exact (hapart j a l₁ hj hfirst).symm
      · exact h.apart j k a b l₁ l₂ (listed_beside hfirst hj) (listed_beside hsecond hk) hne

/-- **A roster stays held** when the octets of its files stay. -/
theorem Roster.Held.frame (h : roster.Held archive) (hforeign : archive'.store.foreign = false)
    (hcount : archive.store.contents.length ≤ archive'.store.contents.length)
    (hget : ∀ i w l, roster i = some (w, l) → ∀ file, w.Owns file →
      archive'.store.get file = archive.store.get file) : roster.Held archive' := by
  refine ⟨hforeign, ?_, h.apart⟩
  intro i w l hw
  exact (h.follows i w l hw).frame hforeign hcount (hget i w l hw)

/-- **A roster stays held** when files are added. -/
theorem Roster.Held.grow {store : Store} (h : roster.Held archive)
    (hgrows : Store.Grows archive.store store) : roster.Held { archive with store } :=
  h.frame hgrows.foreign hgrows.count fun _ _ _ _ file _ => hgrows.old file

/-- **The others are held** after a step that only changes the files of one writer. -/
theorem Roster.Held.others (h : roster.Held archive) (hmember : roster i = some (w, l))
    (hforeign : archive'.store.foreign = false)
    (hcount : archive'.store.contents.length = archive.store.contents.length)
    (hget : ∀ file, ¬ w.Owns file → archive'.store.get file = archive.store.get file) :
    Roster.Held (Function.update roster i none) archive' := by
  refine (h.drop i).frame hforeign (Nat.le_of_eq hcount.symm) ?_
  intro j b l' hb file howns
  obtain ⟨hj, hb⟩ := listed_of_drop hb
  exact hget file (h.apart j i b w l' l hb hmember hj file howns)

/-- **A writer takes a step** that only writes its files. -/
theorem Roster.Held.advance {ws : Workspace} (h : roster.Held archive)
    (hmember : roster i = some (w, l)) (hadvances : Advances { writer := w, archive } ws)
    (hfollows : ws.writer.Follows ws.archive.store l') :
    Roster.Held (Function.update roster i (some (ws.writer, l'))) ws.archive := by
  have hothers := h.others hmember (hadvances.writes.foreign.trans h.own) hadvances.writes.count
    hadvances.writes.others
  refine hothers.join hfollows ?_
  intro j b l'' hj hb
  rw [Apart, hadvances.owns]
  exact h.apart i j w b l l'' hmember hb hj.symm

/-- **Every roster of a session is held.** -/
theorem Session.held (hlibrary : BlockLibrary.Restores) (h : Session rules archive roster) :
    roster.Held archive := by
  induction h with
  | start own =>
      refine ⟨own, ?_, ?_⟩
      · intro i w l hw
        cases hw
      · intro i j a b l l' ha
        cases ha
  | @create archive roster options w store i _ _ hcreate ih =>
      obtain ⟨hfollows, hbegins⟩ := create_follows ih.own hcreate
      refine ((ih.drop i).grow hbegins.toGrows).join hfollows ?_
      -- the files of a new writer are behind those of the others
      intro j b l _ hb file hown howns
      have hold := (ih.follows j b l hb).owns_lt howns
      exact absurd (Nat.lt_of_lt_of_le hold (hbegins.new file hown)) (Nat.lt_irrefl _)
  | unmade _ _ hfailed ih => exact ih.grow (create_failed ih.own hfailed)
  | @equip archive roster i w _ l sink summary _ hmember hnoted ih =>
      obtain rfl := hnoted
      exact ih.advance hmember (Advances.equip w archive sink summary)
        ((ih.follows i w l hmember).equip sink summary)
  | @event archive roster i w l event outcome ws _ hmember _ hoccurs ih =>
      obtain ⟨hadvances, hfollows⟩ := hoccurs.follows hlibrary (ih.follows i w l hmember)
      exact ih.advance hmember hadvances hfollows
  | @merge archive roster i j a b l l' ws _ ha hb hmerge ih =>
      have hij : i ≠ j := merge_ne ha hb hmerge
      obtain ⟨hmerges, hfollows⟩ :=
        merge_follows hlibrary hmerge (ih.follows i a l ha) (ih.follows j b l' hb)
        (ih.apart i j a b l l' ha hb hij)
      have ha' := listed_beside ha hij
      have hothers := (ih.drop j).others ha' (hmerges.foreign.trans ih.own)
        hmerges.count hmerges.others
      refine hothers.join hfollows ?_
      intro k c l'' hk hc
      rw [Apart, hmerges.owns]
      exact ih.apart i k a c l l'' ha (listed_of_drop hc).2 hk.symm
  | @broken archive roster i j a b l l' _ ws w₁ e n _ _ ha hb hij hmerge hflush hlisted hnoted ih =>
      obtain rfl := hnoted
      obtain ⟨hadvances, hfollows⟩ := merge_broken hlibrary hmerge (ih.follows i a l ha)
        (ih.follows j b l' hb) (ih.apart i j a b l l' ha hb hij) hflush hlisted
      have ha' := listed_beside ha hij
      exact (ih.drop j).advance ha' hadvances hfollows
  | @close archive roster i w l ws _ hmember hclose ih =>
      obtain ⟨hforeign, hcount, hget, -⟩ := close_leaves hlibrary (ih.follows i w l hmember) hclose
      exact ih.others hmember hforeign hcount hget
  | drop i _ ih => exact ih.drop i

/-! ## (2) Paths -/

/-- **No two writers** of a run share a file. -/
theorem Run.apart {α : Type} {note : Note α} {register : Register α} {x y : α}
    (hlibrary : BlockLibrary.Restores) {a b : Writer} (h : Run note rules archive register)
    (ha : register i = some (a, x)) (hb : register j = some (b, y)) (hij : i ≠ j) : a.Apart b := by
  obtain ⟨roster, hsession, hsame⟩ := h.ledgers
  obtain ⟨l, hfirst, -⟩ := hsame i a x ha
  obtain ⟨l', hsecond, -⟩ := hsame j b y hb
  exact (hsession.held hlibrary).apart i j a b l l' hfirst hsecond hij

/-- **Names that are apart**: none is another with the ending of a file of values. -/
def Rules.Apart (rules : Rules) : Prop :=
  ∀ name name', rules.names name → rules.names name' → Path.same (toastFileName name) name' = false

/-- **Everyone's paths lead to their files**, and names are as the rules say. -/
def Roster.Led (rules : Rules) (roster : Roster) (archive : Archive) : Prop :=
  ∀ i w l, roster i = some (w, l) → rules.names w.options.fileName ∧ w.Leads archive.store

/-- Writers whose paths lead to their files have different names. -/
theorem Roster.Held.names {a b : Writer} (h : roster.Held archive) (hled : roster.Led rules archive)
    (ha : roster i = some (a, l)) (hb : roster j = some (b, l')) (hij : i ≠ j) :
    Path.same a.options.fileName b.options.fileName = false := by
  rw [← Bool.not_eq_true]
  intro hsame
  obtain ⟨f, hf, -⟩ := (h.follows i a l ha).stored.file
  have hfile := (hled i a l ha).2.file
  rw [Store.find?_same h.own hsame, (hled j b l' hb).2.file, hf] at hfile
  exact h.apart i j a b l l' ha hb hij f (.inl hf) (.inl hfile)

omit [Library] in
/-- **A writer joins** whose paths lead to its files; those of the others lead where they led. -/
theorem Roster.Led.join (h : Roster.Led rules (Function.update roster i none) archive)
    (hname : rules.names w.options.fileName) (hleads : w.Leads archive.store) :
    Roster.Led rules (Function.update roster i (some (w, l))) archive := by
  intro j b l' hb
  rcases listed_of_join hb with ⟨-, hsame⟩ | ⟨hj, hb⟩
  · cases hsame
    exact ⟨hname, hleads⟩
  · exact h j b l' (listed_beside hb hj)

omit [Library] in
/-- Everyone's paths still lead to their files without one of the writers. -/
theorem Roster.Led.drop (h : Roster.Led rules roster archive) (i : Nat) :
    Roster.Led rules (Function.update roster i none) archive :=
  fun j b l' hb => h j b l' (listed_of_drop hb).2

/-- **Everyone's paths** still lead to their files when files are added. -/
theorem Roster.Led.grow {store : Store} (h : Roster.Led rules roster archive)
    (hheld : roster.Held archive) (hgrows : Store.Grows archive.store store) :
    Roster.Led rules roster { archive with store } := by
  intro i w l hmember
  obtain ⟨hname, hleads⟩ := h i w l hmember
  obtain ⟨f, hf, -⟩ := (hheld.follows i w l hmember).stored.file
  refine ⟨hname, hleads.congr rfl rfl rfl ?_ ?_⟩
  · rw [hleads.file, hf]
    exact hgrows.paths _ _ (hleads.file.trans hf)
  · intro hsome
    obtain ⟨t, ht⟩ := Option.ne_none_iff_exists'.mp hsome
    rw [hleads.toast hsome, ht]
    exact hgrows.paths _ _ ((hleads.toast hsome).trans ht)

omit [Library] in
/-- **Everyone's paths** still lead to their files after a step that only writes. -/
theorem Roster.Led.advance {ws : Workspace} (h : Roster.Led rules roster archive)
    (hmember : roster i = some (w, l)) (hadvances : Advances { writer := w, archive } ws) :
    Roster.Led rules (Function.update roster i (some (ws.writer, l'))) ws.archive := by
  have hothers : Roster.Led rules (Function.update roster i none) ws.archive := by
    intro j b l'' hb
    obtain ⟨hname, hleads⟩ := h j b l'' (listed_of_drop hb).2
    exact ⟨hname, hleads.congr rfl rfl rfl (hadvances.writes.find? _) fun _ =>
      hadvances.writes.find? _⟩
  obtain ⟨hname, hleads⟩ := h i w l hmember
  refine hothers.join ?_ (hadvances.leads hleads)
  rw [hadvances.options]
  exact hname

/-- **No writer's file is the file of values of another**, whatever their names are. -/
theorem Roster.Held.toastNames {a b : Writer} (h : roster.Held archive)
    (hled : roster.Led rules archive) (ha : roster i = some (a, l)) (hb : roster j = some (b, l'))
    (hij : i ≠ j) (hsome : a.toastFile ≠ none) :
    Path.same a.options.toastFileName b.options.fileName = false := by
  rw [← Bool.not_eq_true]
  intro hsame
  obtain ⟨t, ht⟩ := Option.ne_none_iff_exists'.mp hsome
  have hfind := (hled i a l ha).2.toast hsome
  rw [Store.find?_same h.own hsame, (hled j b l' hb).2.file, ht] at hfind
  exact h.apart i j a b l l' ha hb hij t (.inr ht) (.inl hfind)

/-- **A writer that is made** finds its files where its paths lead. -/
theorem Roster.Led.made (h : Roster.Led rules roster archive) (hheld : roster.Held archive)
    {options : WriterOptions} {store : Store} (i : Nat) (hallowed : rules.names options.fileName)
    (hcreate : create options archive.store = (.ok w, store)) :
    Roster.Led rules (Function.update roster i (some (w, {}))) { archive with store } := by
  obtain ⟨-, hbegins⟩ := create_follows hheld.own hcreate
  have hothers := (h.drop i).grow (hheld.drop i) hbegins.toGrows
  refine hothers.join ?_ ⟨?_, ?_⟩
  · rw [hbegins.chosen]
    exact hallowed
  · rw [hbegins.chosen]
    exact hbegins.path
  · rw [hbegins.chosen]
    exact hbegins.toastPath

/-- **A merge** deletes the paths of the other writer, and no others that are needed, unless
someone's file has the name of its file of values. -/
theorem Roster.Led.merged (hlibrary : BlockLibrary.Restores) (h : Roster.Led rules roster archive)
    (hheld : roster.Held archive) {a b : Writer} (ha : roster i = some (a, l))
    (hb : roster j = some (b, l'))
    (hmerge : runAt (merge b) { writer := a, archive } = (.ok (), ws))
    (hspared : ∀ k c l'', roster k = some (c, l'') → k ≠ j →
      Path.same b.options.toastFileName c.options.fileName = false) :
    Roster.Led rules
      (Function.update (Function.update roster j none) i (some (ws.writer, l.merge l')))
      ws.archive := by
  have hij : i ≠ j := merge_ne ha hb hmerge
  obtain ⟨hmerges, -⟩ := merge_follows hlibrary hmerge (hheld.follows i a l ha)
    (hheld.follows j b l' hb)
    (hheld.apart i j a b l l' ha hb hij)
  have hothers : Roster.Led rules (Function.update roster j none) ws.archive := by
    intro k c l'' hc
    obtain ⟨hk, hc⟩ := listed_of_drop hc
    obtain ⟨hname, hleads⟩ := h k c l'' hc
    exact ⟨hname, hmerges.spares hleads (hheld.names h hc hb hk) (hspared k c l'' hc hk)
      (hheld.toastNames h hc hb hk)⟩
  obtain ⟨hname, hleads⟩ := hothers i a l (listed_beside ha hij)
  refine (hothers.drop i).join ?_ (hleads.congr hmerges.options hmerges.file hmerges.toastFile rfl
    fun _ => rfl)
  rw [hmerges.options]
  exact hname

/-- **A close** deletes at most the path of the writer's own file of values. -/
theorem Roster.Led.closed (hlibrary : BlockLibrary.Restores) (h : Roster.Led rules roster archive)
    (hheld : roster.Held archive) (hmember : roster i = some (w, l))
    (hclose : runAt close { writer := w, archive } = (.ok (), ws)) :
    Roster.Led rules (Function.update roster i none) ws.archive := by
  obtain ⟨-, -, -, hpaths⟩ := close_leaves hlibrary (hheld.follows i w l hmember) hclose
  intro j b l' hb
  obtain ⟨hj, hb⟩ := listed_of_drop hb
  obtain ⟨hname, hleads⟩ := h j b l' hb
  refine ⟨hname, hleads.congr rfl rfl rfl ?_ fun _ => ?_⟩
  · rcases hpaths b.options.fileName with hsame | ⟨hsome, hgone, -⟩
    · exact hsame
    · rw [hheld.toastNames h hmember hb hj.symm hsome] at hgone
      cases hgone
  · rcases hpaths b.options.toastFileName with hsame | ⟨-, hgone, -⟩
    · exact hsame
    · have hdiffer := hheld.names h hb hmember hj
      rw [Path.same_symm (Path.same_of_toastFileName hgone)] at hdiffer
      cases hdiffer

/-- **Everyone's paths lead to their files**, if names are apart. -/
theorem Session.leads (hlibrary : BlockLibrary.Restores) (hnames : rules.Apart)
    (h : Session rules archive roster) : roster.Led rules archive := by
  induction h with
  | start own =>
      intro i w l hw
      cases hw
  | create i hbefore hallowed hcreate ih =>
    exact ih.made (Session.held hlibrary hbefore) i hallowed hcreate
  | unmade hbefore _ hfailed ih =>
      have hheld := Session.held hlibrary hbefore
      exact ih.grow hheld (create_failed hheld.own hfailed)
  | @equip archive roster i w l _ sink summary _ hmember _ ih =>
      exact ih.advance hmember (Advances.equip w archive sink summary)
  | @event archive roster i w l event outcome ws hbefore hmember _ hoccurs ih =>
      have hfollows := (Session.held hlibrary hbefore).follows i w l hmember
      exact ih.advance hmember (hoccurs.follows hlibrary hfollows).1
  | @merge archive roster i j a b l l' ws hbefore ha hb hmerge ih =>
      exact ih.merged hlibrary (Session.held hlibrary hbefore) ha hb hmerge fun k c l'' hc _ =>
        hnames _ _ (ih j b l' hb).1 (ih k c l'' hc).1
  | @broken archive roster i j a b l l' _ ws w₁ e n hbefore _ ha hb hij hmerge hflush
      hlisted _ ih =>
      have hheld := Session.held hlibrary hbefore
      obtain ⟨hadvances, -⟩ := merge_broken hlibrary hmerge (hheld.follows i a l ha)
        (hheld.follows j b l' hb) (hheld.apart i j a b l l' ha hb hij) hflush hlisted
      have ha' := listed_beside ha hij
      exact (ih.drop j).advance ha' hadvances
  | close hbefore hmember hclose ih =>
    exact ih.closed hlibrary (Session.held hlibrary hbefore) hmember hclose
  | drop i _ ih => exact ih.drop i

/-- **A writer's paths lead to its files** if names are apart, or if this is known of it anyway. -/
theorem Session.led (hlibrary : BlockLibrary.Restores) (h : Session rules archive roster)
    (hmember : roster i = some (w, l)) (hpaths : rules.Apart ∨ w.Leads archive.store) :
    w.Leads archive.store := by
  rcases hpaths with hnames | hleads
  · exact (h.leads hlibrary hnames i w l hmember).2
  · exact hleads

/-! ## (3) Ledgers -/

/-- **Ledgers of sessions in which nothing failed** are clean. -/
theorem Session.clean {names : String → Prop} (h : Session (.strict names) archive roster)
    (hmember : roster i = some (w, l)) : l.Clean := by
  refine Run.each (P := fun _ l => l.Clean) h (fun _ => Ledger.clean_nil) ?_ ?_ ?_ ?_ i w l hmember
  · rintro w sink summary l _ rfl hclean
    exact hclean
  · intro event outcome ws ws' l hallowed _ hclean
    rcases hallowed with rfl | hrefused
    · exact hclean.after _ event
    · exact hrefused.elim
  · intro archive roster i j a b l l' ws _ _ _ _ hclean hclean'
    exact hclean.merge hclean'
  · intro a b w n counted l l' l₁ hbroken
    exact hbroken.elim

/-- **Ledgers of sessions in which only rows were refused** are backed. -/
theorem Session.backed {names : String → Prop} (h : Session (.refusing names) archive roster)
    (hmember : roster i = some (w, l)) : l.Backed := by
  refine Run.each (P := fun _ l => l.Backed) h (fun _ => Ledger.clean_nil.backed) ?_ ?_ ?_ ?_
    i w l hmember
  · rintro w sink summary l _ rfl hbacked
    exact hbacked
  · intro event outcome ws ws' l _ _ hbacked
    exact hbacked.after _ event outcome
  · intro archive roster i j a b l l' ws _ _ _ _ hbacked hbacked'
    exact hbacked.merge hbacked'
  · intro a b w n counted l l' l₁ hbroken
    exact hbroken.elim

/-! ## (4) Calls -/

/-- **Calls that succeed** lead from one run to another. -/
theorem Run.perform (hlibrary : BlockLibrary.Restores) {α : Type} {note : Note α}
    {register : Register α} {x : α} {calls : List Call} (h : Run note rules archive register)
    (hmember : register i = some (w, x))
    (hcalls : runAt (Writer.perform calls) { writer := w, archive } = (.ok (), ws)) :
    Advances { writer := w, archive } ws ∧ Run note rules ws.archive
      (Function.update register i (some (ws.writer, note.perform w.options calls x))) := by
  induction calls generalizing archive register w x with
  | nil =>
      obtain ⟨-, rfl⟩ := pure_ok hcalls
      refine ⟨Advances.refl _, ?_⟩
      rw [Note.perform, List.foldl_nil, Function.update_eq_self_iff.mpr hmember.symm]
      exact h
  | cons call calls ih =>
      obtain ⟨⟨⟩, w₁, hfirst, hrest⟩ := bind_ok hcalls
      have hoccurs := Call.occurs hfirst
      -- the options of the writer are those of the ledger that it has besides
      obtain ⟨roster, hsession, hsame⟩ := h.ledgers
      obtain ⟨l, hlisted, -⟩ := hsame i w x hmember
      obtain ⟨hadvances₁, -⟩ :=
        hoccurs.follows hlibrary ((hsession.held hlibrary).follows i w l hlisted)
      obtain ⟨hadvances₂, hdone⟩ :=
        ih (h.event hmember (.inl rfl) hoccurs) (Function.update_self i _ register) hrest
      rw [Function.update_idem, hadvances₁.options] at hdone
      exact ⟨hadvances₁.trans hadvances₂, hdone⟩

/-- **Two writers** are made one after the other, and then each takes its rows. -/
theorem run_two (hlibrary : BlockLibrary.Restores) {α : Type} (note : Note α)
    {store store' store'' : Store} {options options' : WriterOptions} {a b : Writer}
    {calls calls' : List Call} {wa wb : Workspace} (hstore : store.foreign = false)
    (hfirst : rules.names options.fileName) (hsecond : rules.names options'.fileName)
    (ha : create options store = (.ok a, store')) (hb : create options' store' = (.ok b, store''))
    (hcalls : runAt (perform calls) { writer := a, archive := { store := store'' } } = (.ok (), wa))
    (hcalls' : runAt (perform calls') { writer := b, archive := wa.archive } = (.ok (), wb)) :
    ∃ register, Run note rules wb.archive register ∧
      register 0 = some (wa.writer, note.perform options calls note.fresh) ∧
      register 1 = some (wb.writer, note.perform options' calls' note.fresh) := by
  have hstart : Run note rules { store } fun _ => none := .start hstore
  have hmade := hstart.create 0 hfirst ha
  obtain ⟨-, hbegins⟩ := create_follows hstore ha
  obtain ⟨-, hbegins'⟩ := create_follows hbegins.foreign hb
  obtain ⟨-, hcalled⟩ := (hmade.create 1 hsecond hb).perform hlibrary (i := 0) rfl hcalls
  obtain ⟨-, hcalled'⟩ := hcalled.perform hlibrary (i := 1) rfl hcalls'
  rw [hbegins.chosen, hbegins'.chosen] at hcalled'
  exact ⟨_, hcalled', rfl, rfl⟩

/-- **How far a merge came** that failed, and what the ledger of the writer is then. -/
inductive Unmerged (a b : Writer) (l l' : Ledger) (archive : Archive) (e : Fault) (ws : Workspace) :
    Ledger → Prop
  /-- The writers are not to be merged, and nothing was begun. -/
  | barred (check : a.checkMerge b = .error e) (same : ws = { writer := a, archive }) :
      Unmerged a b l l' archive e ws l
  /-- The rows that the writer kept were refused. -/
  | refused (check : a.checkMerge b = .ok ())
      (flushed : runAt Writer.flush { writer := a, archive } = (.error e, ws)) :
      Unmerged a b l l' archive e ws l.refused
  /-- Some stripes of the other writer came over, as many as the directory has more; its rows are
  counted only if all of them did. -/
  | broken {w₁ : Workspace} {n : Nat} {more : List Row} (check : a.checkMerge b = .ok ())
      (flushed : runAt Writer.flush { writer := a, archive } = (.ok (), w₁))
      (listed : ws.writer.stripes.length = w₁.writer.stripes.length + n)
      (counted : more = [] ∨ (more = l'.counted ∧ n = l'.flushed.stripes.length)) :
      Unmerged a b l l' archive e ws ((l.flushed.adopt (l'.flushed.stripes.take n)).count more)

/-- **A merge that fails** leads to another session, in which the other writer is gone. -/
theorem Session.mergeFailed (hlibrary : BlockLibrary.Restores) {names : String → Prop}
    (h : Session (.lax names) archive roster) {a b : Writer} (ha : roster i = some (a, l))
    (hb : roster j = some (b, l')) (hij : i ≠ j)
    (hmerge : runAt (Writer.merge b) { writer := a, archive } = (.error e, ws)) :
    Advances { writer := a, archive } ws ∧ ∃ l₁, Unmerged a b l l' archive e ws l₁ ∧
      Session (.lax names) ws.archive
        (Function.update (Function.update roster j none) i (some (ws.writer, l₁))) := by
  have hheld := h.held hlibrary
  have ha' := listed_beside ha hij
  have hours := hheld.follows i a l ha
  -- the merge is barred, its flush is refused, or it broke off on the way
  rcases merge_failed hlibrary hmerge hours (hheld.follows j b l' hb)
    (hheld.apart i j a b l l' ha hb hij) with
    ⟨hcheck, rfl⟩ | ⟨hcheck, hflush | ⟨w₁, n, more, hflush, hadvances, hfollows, hmore⟩⟩
  · refine ⟨Advances.refl _, l, .barred hcheck rfl, ?_⟩
    rw [Function.update_eq_self_iff.mpr ha'.symm]
    exact h.drop j
  · obtain ⟨hadvances, -⟩ := flush_follows hlibrary hours hflush
    exact ⟨hadvances, l.refused, .refused hcheck hflush,
      (h.drop j).event ha' (.inr trivial) (.flush hflush)⟩
  · obtain ⟨-, hflushed⟩ := flush_follows hlibrary hours hflush
    have hlisted : ws.writer.stripes.length =
        w₁.writer.stripes.length + (l'.flushed.stripes.take n).length := by
      rw [hfollows.listed, hflushed.listed]
      exact List.length_append
    refine ⟨hadvances, _, .broken hcheck hflush hlisted ?_,
      h.broken trivial ha hb hij hmerge hflush hlisted rfl⟩
    by_cases htuples : ws.writer.tuples = a.tuples
    · rw [if_neg (by simp [htuples])]
      exact .inl rfl
    · rw [if_pos (decide_eq_true htuples)]
      rcases hmore with rfl | ⟨rfl, rfl⟩
      · -- the count of rows tells that the rows are counted
        refine absurd ?_ htuples
        rw [hfollows.tuples, hours.tuples, Ledger.count_nil]
        exact congrArg List.length l.counted_flushed
      · exact .inr ⟨rfl, by rw [List.take_length]⟩

/-- **The file of a writer that was closed** in a session has the batches of its ledger, if its
paths led to its files. -/
theorem Session.filed (hlibrary : BlockLibrary.Restores) (h : Session rules archive roster)
    (hmember : roster i = some (w, l)) (hleads : w.Leads archive.store)
    (hclose : runAt Writer.close { writer := w, archive } = (.ok (), ws)) (hfits : ws.writer.Fits)
    (hrows : ∀ info ∈ ws.writer.stripes, info.rows < 2 ^ 60) :
    ∃ footer, Filed ws.archive.store w.options.fileName l.flushed footer ∧
      footer.schema = w.options.schema :=
  close_filed hlibrary ((h.held hlibrary).follows i w l hmember) hleads hclose hfits hrows

end ColumnFile.Writer
