import ColumnFile.Proofs.Writer.Crew
import ColumnFile.Proofs.Writer.Laid

/-! # What merges remove

A merge deletes the paths that have a name of the other writer. The name of its file of values is
one of them even if the writer never made such a file, and then whatever is there is deleted with
it. All other paths lead where they led, and only files of the writer that goes on are written.

* **`Writer.Removes`** — what a merge does to paths and files, in any store.
* **`Writer.Frames`** — the files of others stay, and so does the file of the writer that goes on.
* **`Writer.merge_removes`** — when a merge leaves the files of others alone. -/

namespace ColumnFile.Writer

open Writing

variable {ws ws' : Workspace} {a b other : Writer} {s s' : Store}

/-! ## (1) Paths and files after a merge -/

/-- **What a merge removes**: the paths with a name of the other writer lead nowhere, all others
where they led, and no file is written but those of the writer. -/
structure Removes (other : Writer) (ws ws' : Workspace) : Prop where
  named : ∀ path, other.Named ws.archive.store path → ws'.archive.store.find? path = none
  others : ∀ path, ¬ other.Named ws.archive.store path →
    ws'.archive.store.find? path = ws.archive.store.find? path
  files : ∀ file, ¬ ws.writer.Owns file → ws'.archive.store.get file = ws.archive.store.get file

/-- **A merge removes** the paths with a name of the other writer, whatever the writers are like. -/
theorem removes_of_merge [Library] (h : runAt (merge other) ws = (.ok (), ws')) :
    Removes other ws ws' := by
  obtain ⟨-, w₁, w₂, w₃, hflush, hadopt, hstatistics, hdelete⟩ := merge_ok h
  -- up to the deletion only files of the writer are written
  have hadvances := (flush_advances hflush).trans (adopt_lays other hadopt).advances
  obtain ⟨store, rfl, -, hcontents, hnamed, hothers⟩ := deleteFiles_named hdelete
  obtain ⟨summaryStatistics, fileStatistics, -, -, rfl⟩ := takeStatistics_ok hstatistics
  have hnames : ∀ path, other.Named w₂.archive.store path ↔ other.Named ws.archive.store path :=
    fun path =>
    or_congr (Store.names_congr hadvances.writes.foreign)
      (Store.names_congr hadvances.writes.foreign)
  refine ⟨fun path hpath => hnamed path ((hnames path).mpr hpath), ?_, ?_⟩
  · intro path hpath
    exact (hothers path (mt (hnames path).mp hpath)).trans (hadvances.writes.find? path)
  · intro file hfile
    show store.contents.getD file [] = ws.archive.store.get file
    rw [hcontents]
    exact hadvances.writes.others file hfile

/-! ## (2) Files of others -/

/-- **The files of others stay** while a writer takes over another one: every path that leads to a
file of neither still does, and the file is the same; and the path of the first one still leads to
its file. -/
structure Frames (a b : Writer) (s s' : Store) : Prop where
  others : ∀ path file, s.find? path = some file → ¬ a.Owns file → ¬ b.Owns file →
    s'.find? path = some file ∧ s'.get file = s.get file
  file : ∀ file, a.file = some file → s.find? a.options.fileName = some file →
    s'.find? a.options.fileName = some file

/-- **A merge that stays among its files**: what has a name of the other writer is a file of one of
the two, and it is not the path of the first one to its file. -/
def Private (a b : Writer) (s : Store) : Prop :=
  ∀ path file, b.Named s path → s.find? path = some file →
    (a.Owns file ∨ b.Owns file) ∧ (s.Names path a.options.fileName → a.file ≠ some file)

/-- **The files of others stay** exactly when the merge stays among the files of the two writers. -/
theorem Removes.frames_iff (h : Removes b ws ws') :
    Frames ws.writer b ws.archive.store ws'.archive.store ↔
    Private ws.writer b ws.archive.store := by
  constructor
  · intro hframes path file hnamed hfind
    have hgone := h.named path hnamed
    constructor
    · -- a file of neither would be led to still, but the path is gone
      by_contra hothers
      obtain ⟨hours, htheirs⟩ := not_or.mp hothers
      rw [(hframes.others path file hfind hours htheirs).1] at hgone
      cases hgone
    · intro hnames hfile
      have hkept := hframes.file file hfile ((Store.find?_names hnames).symm.trans hfind)
      rw [h.named _ (hnamed.imp (·.trans hnames) (·.trans hnames))] at hkept
      cases hkept
  · intro hprivate
    constructor
    · intro path file hfind hours htheirs
      have hnot : ¬ b.Named ws.archive.store path := fun hnamed =>
        (hprivate path file hnamed hfind).1.elim hours htheirs
      exact ⟨(h.others path hnot).trans hfind, h.files file hours⟩
    · intro file hfile hfind
      rw [h.others _ fun hnamed => ?_, hfind]
      have hsame : ws.archive.store.Names ws.writer.options.fileName ws.writer.options.fileName :=
        hnamed.elim (fun hnames => hnames.symm.trans hnames) fun hnames => hnames.symm.trans hnames
      exact (hprivate _ file hnamed hfind).2 hsame hfile

/-- **Writers whose names lead to their own files** and to no others stay among them. -/
theorem private_of_leads (hleads : b.Leads s) (hapart : a.Apart b)
    (hnone : b.toastFile = none → s.find? b.options.toastFileName = none) : Private a b s := by
  intro path file hnamed hfind
  have htheirs : b.Owns file := by
    rcases hnamed with hnames | hnames
    · exact .inl (hleads.file.symm.trans ((Store.find?_names hnames).trans hfind))
    · have hfind := (Store.find?_names hnames).trans hfind
      refine .inr ?_
      by_cases hmade : b.toastFile = none
      · rw [hnone hmade] at hfind
        cases hfind
      · exact (hleads.toast hmade).symm.trans hfind
  exact ⟨.inr htheirs, fun _ hfile => hapart file (.inl hfile) htheirs⟩

variable [Library]

/-- **What merges remove.** Whatever is in a store and whatever two writers are like, a merge that
succeeds deletes the paths with a name of the second, leaves all other paths where they led, and
writes no files but those of the first. So the files of others stay, and the first keeps its own,
exactly when nothing else has a name of the second; which is the case when its names lead to its own
files, and nothing has the name of its file of values if it has none. -/
theorem merge_removes {archive : Archive}
    (h : runAt (merge b) { writer := a, archive } = (.ok (), ws')) :
    Removes b { writer := a, archive } ws' ∧
      (Frames a b archive.store ws'.archive.store ↔ Private a b archive.store) ∧
      (b.Leads archive.store → a.Apart b →
        (b.toastFile = none → archive.store.find? b.options.toastFileName = none) →
        Frames a b archive.store ws'.archive.store) := by
  have hremoves := removes_of_merge h
  exact ⟨hremoves, hremoves.frames_iff,
    fun hleads hapart hnone => hremoves.frames_iff.mpr (private_of_leads hleads hapart hnone)⟩

omit [Library] in
/-- A file that happens to have the name of a file of values is deleted, although the writer that is
merged never made one. -/
theorem merge_removes_unrelated :
    ∃ (a b : Writer) (store store' : Store) (merged : Workspace),
      create (textColumn "f" none) { paths := [("g.toast", 0)], contents := [[0]] } =
        (.ok a, store) ∧
      create (textColumn "g" none) store = (.ok b, store') ∧ b.toastFile = none ∧
      runAt (@merge .verbatim b) { writer := a, archive := { store := store' } } =
        (.ok (), merged) ∧
      store'.find? "g.toast" = some 0 ∧ merged.archive.store.find? "g.toast" = none ∧
      ¬ Frames a b store' merged.archive.store := by
  have hrun : ∃ a b store store' result,
      create (textColumn "f" none) { paths := [("g.toast", 0)], contents := [[0]] } =
        (.ok a, store) ∧
      create (textColumn "g" none) store = (.ok b, store') ∧
      result = runAt (@merge .verbatim b) { writer := a, archive := { store := store' } } ∧
        result.1 = .ok () ∧
      a.file = some 1 ∧ a.toastFile = none ∧ b.file = some 2 ∧ b.toastFile = none ∧
      b.options = textColumn "g" none ∧ store'.foreign = false ∧ store'.find? "g.toast" = some 0 :=
    ⟨_, _, _, _, _, rfl, rfl, rfl, by decide +kernel, rfl, rfl, rfl, rfl, rfl, rfl,
      by decide +kernel⟩
  obtain ⟨a, b, store, store', result, ha, hb, hresult, hresult', hours, hours', htheirs, htheirs',
    hoptions, hown, hfind⟩ := hrun
  obtain ⟨hremoves, hframes, -⟩ := @merge_removes _ _ _ .verbatim _ (runAt_eq hresult hresult')
  have hnamed : b.Named store' "g.toast" := by
    refine .inr ((Store.names_own hown).mpr ?_)
    rw [hoptions]
    exact Path.same_refl _
  refine ⟨a, b, store, store', result.2, ha, hb, htheirs', runAt_eq hresult hresult', hfind,
    hremoves.named _ hnamed, fun hstays => ?_⟩
  -- the file belongs to neither writer
  rcases (hframes.mp hstays _ 0 hnamed hfind).1 with (hfile | htoast) | (hfile | htoast)
  · rw [hours] at hfile
    cases hfile
  · rw [hours'] at htoast
    cases htoast
  · rw [htheirs] at hfile
    cases hfile
  · rw [htheirs'] at htoast
    cases htoast

end ColumnFile.Writer
