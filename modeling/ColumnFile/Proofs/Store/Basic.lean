import ColumnFile.Proofs.Store.Path
import ColumnFile.Store.Basic

/-! # What the steps of a store change

A store of one's own: what each step does to a path or a file, and that it leaves all others alone.

* **`Store.find?_create`**, **`Store.find?_delete`** — paths after a step.
* **`Store.Names`** — paths that name the same file, in any store; `find?_delete_of_names` and
  `find?_delete_of_not_names` are deletion there.
* **`Store.get_write_self`**, **`Store.get_write_of_ne`** — files after a step.
* **`Store.Writes`**, **`Store.Grows`** — steps that only write some files, and steps that only add
  files.
* **`Bytes.slice?_append_left`** — a range stays what it is when octets are added behind it. -/

namespace ColumnFile

/-! ## (1) Ranges of growing octets -/

namespace Bytes

/-- A range of octets stays when others are added behind them. -/
theorem slice?_append_left {bs out : Bytes} {start len : Nat} (h : bs.slice? start len = some out)
    (more : Bytes) : (bs ++ more).slice? start len = some out := by
  unfold slice? at h ⊢
  by_cases hfits : start + len ≤ bs.length
  · rw [if_pos hfits] at h
    cases h
    have hfits' : start + len ≤ (bs ++ more).length := by
      rw [List.length_append]
      omega
    have hlen : len ≤ (bs.drop start).length := by
      rw [List.length_drop]
      omega
    rw [if_pos hfits', List.drop_append_of_le_length (by omega), List.take_append_of_le_length hlen]
  · rw [if_neg hfits] at h
    cases h

/-- The range of octets that were added at the end. -/
theorem slice?_append_right (bs more : Bytes) :
    (bs ++ more).slice? bs.length more.length = some more := by
  have hend : bs.length + more.length ≤ (bs ++ more).length := Nat.le_of_eq List.length_append.symm
  rw [slice?, if_pos hend, List.drop_left, List.take_length]

/-- A range of a range. -/
theorem slice?_slice? {bs middle out : Bytes} {start len start' len' : Nat}
    (h : bs.slice? start len = some middle) (h' : middle.slice? start' len' = some out) :
    bs.slice? (start + start') len' = some out := by
  unfold slice? at h h' ⊢
  by_cases hfits : start + len ≤ bs.length
  · rw [if_pos hfits] at h
    cases h
    by_cases hfits' : start' + len' ≤ ((bs.drop start).take len).length
    · rw [if_pos hfits'] at h'
      cases h'
      rw [List.length_take, List.length_drop] at hfits'
      rw [if_pos (by omega), List.drop_take, List.take_take, List.drop_drop,
        Nat.min_eq_left (by omega)]
    · rw [if_neg hfits'] at h'
      cases h'
  · rw [if_neg hfits] at h
    cases h

/-- A range lies inside. -/
theorem le_of_slice? {bs out : Bytes} {start len : Nat} (h : bs.slice? start len = some out) :
    start + len ≤ bs.length := by
  unfold slice? at h
  by_cases hfits : start + len ≤ bs.length
  · exact hfits
  · rw [if_neg hfits] at h
    cases h

/-- A range from the beginning. -/
theorem eq_take_of_slice? {bs out : Bytes} {len : Nat} (h : bs.slice? 0 len = some out) :
    out = bs.take len := by
  have hle := le_of_slice? h
  rw [slice?, if_pos hle] at h
  exact (Option.some.inj h).symm

/-- **A range stays** when the octets up to some place behind it stay. -/
theorem slice?_of_take {bs bs' out : Bytes} {start len n : Nat} (htake : bs'.take n = bs.take n)
    (hwithin : start + len ≤ n) (h : bs.slice? start len = some out) :
    bs'.slice? start len = some out := by
  have hle := le_of_slice? h
  have hlength := congrArg List.length htake
  rw [List.length_take, List.length_take] at hlength
  have hrange : ∀ b : Bytes, (b.drop start).take len = ((b.take n).drop start).take len := by
    intro b
    rw [List.drop_take, List.take_take, Nat.min_eq_left (by omega)]
  rw [slice?, if_pos hle, hrange] at h
  rw [slice?, if_pos (by omega), hrange, htake]
  exact h

/-- What lies before the place of a write stays. -/
theorem take_overwrite {bs : Bytes} {position n : Nat} (new : Bytes) (hn : n ≤ position)
    (hposition : position ≤ bs.length) : (bs.overwrite position new).take n = bs.take n := by
  have hlength : n ≤ (bs.take position).length := by
    rw [List.length_take]
    omega
  rw [overwrite, List.append_assoc, List.append_assoc, List.take_append_of_le_length hlength,
    List.take_take, Nat.min_eq_left hn]

/-- **What was written** is at its place. -/
theorem slice?_overwrite {bs : Bytes} {position : Nat} (new : Bytes)
    (hposition : position ≤ bs.length) :
    (bs.overwrite position new).slice? position new.length = some new := by
  have hzeros : position - bs.length = 0 := Nat.sub_eq_zero_of_le hposition
  have hlength : (bs.take position).length = position := List.length_take_of_le hposition
  have hright := slice?_append_right (bs.take position) new
  rw [hlength] at hright
  rw [overwrite, hzeros, zeros, List.replicate_zero, List.append_nil]
  exact slice?_append_left hright _

/-- Writing no octets changes nothing. -/
theorem overwrite_nil {bs : Bytes} {position : Nat} (hposition : position ≤ bs.length) :
    bs.overwrite position [] = bs := by
  have hzeros : position - bs.length = 0 := Nat.sub_eq_zero_of_le hposition
  rw [overwrite, hzeros, zeros, List.replicate_zero, List.append_nil, List.append_nil,
    List.length_nil, Nat.add_zero]
  exact List.take_append_drop position bs

/-- Octets written at the end are added. -/
theorem overwrite_length (bs new : Bytes) : bs.overwrite bs.length new = bs ++ new := by
  rw [overwrite, List.take_length, Nat.sub_self, List.drop_of_length_le (Nat.le_add_right _ _),
    List.append_nil]
  show bs ++ [] ++ new = bs ++ new
  rw [List.append_nil]

end Bytes

namespace Store

variable {s s' s'' : Store} {path path' : String} {file file' : FileId} {bs : Bytes}
  {position : Nat}

/-! ## (2) Paths -/

/-- The file that a path leads to, by the path that is kept for it. -/
theorem find?_kept {kept : String} (h : s.kept? path = some kept) :
    s.find? path = (s.paths.find? fun p => Path.same p.1 kept).map (·.2) := by
  rw [find?, h]
  rfl

/-- A path that cannot be kept leads nowhere. -/
theorem find?_unkept (h : s.kept? path = none) : s.find? path = none := by
  rw [find?, h]
  rfl

/-- A store of one's own keeps every path. -/
theorem kept?_own (hs : s.foreign = false) (path : String) : s.kept? path = some path := by
  rw [kept?, hs]
  rfl

/-- In files of one's own a path leads to the file that was made for it. -/
theorem find?_own (hs : s.foreign = false) (path : String) :
    s.find? path = (s.paths.find? fun p => Path.same p.1 path).map (·.2) :=
  find?_kept (kept?_own hs path)

/-- **Paths that name the same file** of a store: the paths that it keeps for them do. -/
def Names (s : Store) (path path' : String) : Prop :=
  ∃ kept kept', s.kept? path = some kept ∧ s.kept? path' = some kept' ∧ Path.same kept kept' = true

/-- A path names what another names, and the other way round. -/
theorem Names.symm (h : s.Names path path') : s.Names path' path := by
  obtain ⟨kept, kept', hkept, hkept', hsame⟩ := h
  exact ⟨kept', kept, hkept', hkept, Path.same_symm hsame⟩

/-- A path names what is named by one that it names. -/
theorem Names.trans {path'' : String} (h : s.Names path path') (h' : s.Names path' path'') :
    s.Names path path'' := by
  obtain ⟨kept, kept', hkept, hkept', hsame⟩ := h
  obtain ⟨_, kept'', hagain, hkept'', hsame'⟩ := h'
  cases hkept'.symm.trans hagain
  exact ⟨kept, kept'', hkept, hkept'', Path.same_trans hsame hsame'⟩

/-- In files of one's own paths name each other when they are the same. -/
theorem names_own (hs : s.foreign = false) : s.Names path path' ↔ Path.same path path' = true := by
  constructor
  · rintro ⟨kept, kept', hkept, hkept', hsame⟩
    rw [kept?_own hs] at hkept hkept'
    cases hkept
    cases hkept'
    exact hsame
  · exact fun hsame => ⟨_, _, kept?_own hs path, kept?_own hs path', hsame⟩

/-- What paths name does not depend on the files that are there. -/
theorem names_congr (h : s'.foreign = s.foreign) : s'.Names path path' ↔ s.Names path path' := by
  simp only [Names, kept?, h]

/-- **Paths that name the same file** lead to the same file. -/
theorem find?_names (h : s.Names path path') : s.find? path = s.find? path' := by
  obtain ⟨kept, kept', hkept, hkept', hnames⟩ := h
  have hsame : (fun p : String × FileId => Path.same p.1 kept) = fun p => Path.same p.1 kept' := by
    funext p
    rw [Path.same, Path.same, Path.same_iff.mp hnames]
  rw [find?_kept hkept, find?_kept hkept', hsame]

/-- In files of one's own paths that are the same lead to the same file. -/
theorem find?_same (hs : s.foreign = false) (h : Path.same path path' = true) :
    s.find? path = s.find? path' := find?_names ((names_own hs).mpr h)

/-- **A file that was created** is new and empty, and only its path is added. -/
theorem create_eq_ok (hs : s.foreign = false) (h : s.create path = .ok (file, s')) :
    s.find? path = none ∧ file = s.contents.length ∧
      s' = { s with paths := s.paths ++ [(path, file)], contents := s.contents ++ [[]] } := by
  unfold create at h
  rw [kept?_own hs] at h
  cases hfind : s.find? path with
  | some file =>
      rw [hfind] at h
      cases h
  | none =>
      rw [hfind] at h
      cases h
      exact ⟨rfl, rfl, rfl⟩

/-- **Paths after a file was created**: those there were lead where they led. -/
theorem find?_create (hs : s.foreign = false) (h : s.create path = .ok (file, s'))
    (path' : String) :
    s'.find? path' = (s.find? path').or (if Path.same path path' then some file else none) := by
  obtain ⟨-, -, rfl⟩ := create_eq_ok hs h
  rw [find?_own hs, find?_own (by exact hs), List.find?_append]
  cases s.paths.find? fun p => Path.same p.1 path' with
  | some p => rfl
  | none =>
      by_cases hsame : Path.same path path' = true
      · simp [hsame]
      · simp [hsame]

/-- A path that leads somewhere still does after a file was created. -/
theorem find?_create_of_some (hs : s.foreign = false) (h : s.create path = .ok (file, s'))
    (hfind : s.find? path' = some file') : s'.find? path' = some file' := by
  rw [find?_create hs h, hfind, Option.some_or]

/-- The path of a file that was created leads to it. -/
theorem find?_create_self (hs : s.foreign = false) (h : s.create path = .ok (file, s')) :
    s'.find? path = some file := by
  obtain ⟨hnone, -, -⟩ := create_eq_ok hs h
  rw [find?_create hs h, hnone, Path.same_refl, Option.none_or, if_pos rfl]

/-- **A path that was deleted** led somewhere, and what was kept for it is gone. -/
theorem delete_eq_ok (h : s.delete path = .ok s') : ∃ kept, s.kept? path = some kept ∧
    s' = { s with paths := s.paths.filter fun p => !Path.same p.1 kept } := by
  unfold delete at h
  split at h
  · rename_i kept file hkept hfind
    cases h
    exact ⟨kept, hkept, rfl⟩
  · cases h

/-- **A path that names a deleted one** leads nowhere. -/
theorem find?_delete_of_names (h : s.delete path = .ok s') (hnames : s.Names path path') :
    s'.find? path' = none := by
  obtain ⟨kept, hkept, rfl⟩ := delete_eq_ok h
  obtain ⟨_, kept', hsame, hkept', hnames⟩ := hnames
  cases hkept.symm.trans hsame
  rw [find?_kept (by exact hkept'), List.find?_filter, Option.map_eq_none_iff, List.find?_eq_none]
  -- whatever path is the same as the one asked for is the same as the deleted one
  intro p _ hp
  rw [decide_eq_true_eq, Bool.not_eq_true'] at hp
  obtain ⟨hother, hthis⟩ := hp
  rw [Path.same_trans hthis (Path.same_symm hnames)] at hother
  cases hother

/-- **A path that does not name a deleted one** leads where it led. -/
theorem find?_delete_of_not_names (h : s.delete path = .ok s') (hnames : ¬ s.Names path path') :
    s'.find? path' = s.find? path' := by
  obtain ⟨kept, hkept, rfl⟩ := delete_eq_ok h
  cases hkept' : s.kept? path' with
  | none => rw [find?_unkept (by exact hkept'), find?_unkept hkept']
  | some kept' =>
      have hkeeps : (fun p : String × FileId =>
          decide ((!Path.same p.1 kept) = true ∧ Path.same p.1 kept' = true)) =
            fun p => Path.same p.1 kept' := by
        funext p
        by_cases hthis : Path.same p.1 kept' = true
        · have hother : Path.same p.1 kept = false := by
            rw [← Bool.not_eq_true]
            exact fun hp =>
              hnames ⟨kept, kept', hkept, hkept', Path.same_trans (Path.same_symm hp) hthis⟩
          simp [hthis, hother]
        · simp [hthis]
      rw [find?_kept (by exact hkept'), find?_kept hkept', List.find?_filter, hkeeps]

/-- **Paths after one was deleted**: it leads nowhere, the others where they led. -/
theorem find?_delete (hs : s.foreign = false) (h : s.delete path = .ok s') (path' : String) :
    s'.find? path' = if Path.same path path' then none else s.find? path' := by
  by_cases hsame : Path.same path path' = true
  · rw [if_pos hsame]
    exact find?_delete_of_names h ((names_own hs).mpr hsame)
  · rw [if_neg hsame]
    exact find?_delete_of_not_names h fun hnames => hsame ((names_own hs).mp hnames)

/-- A path that leads somewhere is deleted. -/
theorem delete_of_some (hs : s.foreign = false) (hfind : s.find? path = some file) :
    s.delete path = .ok { s with paths := s.paths.filter fun p => !Path.same p.1 path } := by
  rw [delete, kept?_own hs, hfind]

/-- A path that is deleted leaves the contents as they are. -/
theorem contents_delete (h : s.delete path = .ok s') :
    s'.contents = s.contents ∧ s'.foreign = s.foreign := by
  obtain ⟨kept, -, rfl⟩ := delete_eq_ok h
  exact ⟨rfl, rfl⟩

/-! ## (3) Files -/

/-- In files of one's own octets are read from the contents. -/
theorem read_own (hs : s.foreign = false) (file : FileId) (position length : Nat) :
    s.read file position length =
      match (s.get file).slice? position length with
      | some bs => .ok bs
      | none => .error (.readPastEnd length position) := by
  rw [read, if_neg (by rw [hs]; exact fun h => Bool.false_ne_true h.1)]
  cases (s.get file).slice? position length with
  | some bs => rfl
  | none =>
      show Except.error (s.fault _) = _
      rw [fault, hs]
      rfl

/-- **Octets that were read** are a range of the file. -/
theorem read_eq_ok (hs : s.foreign = false) {length : Nat} :
    s.read file position length = .ok bs ↔ (s.get file).slice? position length = some bs := by
  rw [read_own hs]
  cases (s.get file).slice? position length with
  | some out =>
      dsimp only
      rw [Except.ok.injEq, Option.some.injEq]
  | none =>
      constructor
      · intro h
        cases h
      · intro h
        cases h

/-- In files of one's own octets are written over the contents. -/
theorem write_own (hs : s.foreign = false) (file : FileId) (position : Nat) (bs : Bytes) :
    s.write file position bs =
      { s with contents := s.contents.set file ((s.get file).overwrite position bs) } := by
  rw [write, if_neg (by rw [hs]; exact fun h => Bool.false_ne_true h.1)]

/-- **The file that was written.** -/
theorem get_write_self (hs : s.foreign = false) (hfile : file < s.contents.length) (position : Nat)
    (bs : Bytes) : (s.write file position bs).get file = (s.get file).overwrite position bs := by
  rw [write_own hs, get, List.getD_eq_getElem?_getD, List.getElem?_set_self hfile, Option.getD_some]

/-- **Other files** are left alone by a write. -/
theorem get_write_of_ne (hne : file' ≠ file) (position : Nat) (bs : Bytes) :
    (s.write file position bs).get file' = s.get file' := by
  rw [write]
  split
  · rfl
  · show (s.contents.set file _).getD file' [] = s.contents.getD file' []
    rw [List.getD_eq_getElem?_getD, List.getElem?_set_ne (Ne.symm hne),
      ← List.getD_eq_getElem?_getD]

/-- A file that was created is empty, and the others are left alone. -/
theorem get_create (hs : s.foreign = false) (h : s.create path = .ok (file, s')) (file' : FileId) :
    s'.get file' = s.get file' := by
  obtain ⟨-, rfl, rfl⟩ := create_eq_ok hs h
  rw [get, get, List.getD_eq_getElem?_getD, List.getD_eq_getElem?_getD]
  by_cases hlt : file' < s.contents.length
  · rw [List.getElem?_append_left hlt]
  · have hnone : s.contents[file']? = none := List.getElem?_eq_none (Nat.not_lt.mp hlt)
    rw [List.getElem?_append_right (Nat.not_lt.mp hlt), hnone]
    cases hget : ([[]] : List Bytes)[file' - s.contents.length]? with
    | none => rfl
    | some bs =>
        have hmem := List.mem_of_getElem? hget
        rw [List.mem_singleton] at hmem
        rw [hmem]
        rfl

/-! ## (4) Steps that only write -/

/-- **A step that only writes** files for which `may` holds: paths, the count of files and all other
files stay. -/
structure Writes (may : FileId → Prop) (s s' : Store) : Prop where
  foreign : s'.foreign = s.foreign
  paths : s'.paths = s.paths
  count : s'.contents.length = s.contents.length
  others : ∀ file, ¬ may file → s'.get file = s.get file

/-- Nothing is written when nothing changes. -/
theorem Writes.refl (may : FileId → Prop) (s : Store) : Writes may s s :=
  ⟨rfl, rfl, rfl, fun _ _ => rfl⟩

/-- **Steps that only write** add up. -/
theorem Writes.trans {may : FileId → Prop} (h : Writes may s s') (h' : Writes may s' s'') :
    Writes may s s'' := by
  constructor
  · rw [h'.foreign, h.foreign]
  · rw [h'.paths, h.paths]
  · rw [h'.count, h.count]
  · intro file hfile
    rw [h'.others file hfile, h.others file hfile]

/-- More files may be written when some may. -/
theorem Writes.mono {may may' : FileId → Prop} (h : Writes may s s')
    (hle : ∀ file, may file → may' file) :
    Writes may' s s' :=
  ⟨h.foreign, h.paths, h.count, fun file hfile => h.others file fun hmay => hfile (hle file hmay)⟩

/-- **A write** only writes its file. -/
theorem writes_write {may : FileId → Prop} (hmay : may file) (position : Nat) (bs : Bytes) :
    Writes may s (s.write file position bs) := by
  have hothers : ∀ file', ¬ may file' → (s.write file position bs).get file' = s.get file' := by
    intro file' hfile'
    refine get_write_of_ne ?_ position bs
    rintro rfl
    exact hfile' hmay
  rw [write] at hothers ⊢
  split
  · exact Writes.refl may s
  · rename_i hsome
    rw [if_neg hsome] at hothers
    exact ⟨rfl, rfl, List.length_set, hothers⟩

/-- Paths lead where they led while files are written. -/
theorem Writes.find? {may : FileId → Prop} (h : Writes may s s') (path : String) :
    s'.find? path = s.find? path := by
  have hkept : s'.kept? path = s.kept? path := by rw [kept?, kept?, h.foreign]
  rw [Store.find?, Store.find?, hkept, h.paths]

/-! ## (5) Steps that only add files -/

/-- **A step that only adds files**: what is there stays, and so do the paths that lead to it. -/
structure Grows (s s' : Store) : Prop where
  foreign : s'.foreign = false
  count : s.contents.length ≤ s'.contents.length
  old : ∀ file, s'.get file = s.get file
  paths : ∀ path file, s.find? path = some file → s'.find? path = some file

/-- A store grows from itself. -/
theorem Grows.refl (hs : s.foreign = false) : Grows s s :=
  ⟨hs, Nat.le_refl _, fun _ => rfl, fun _ _ hfind => hfind⟩

/-- A store that grows goes on to grow. -/
theorem Grows.trans (h : Grows s s') (h' : Grows s' s'') : Grows s s'' :=
  ⟨h'.foreign, Nat.le_trans h.count h'.count, fun file => (h'.old file).trans (h.old file),
    fun path file hfind => h'.paths path file (h.paths path file hfind)⟩

/-- **A file that is created** is added. -/
theorem create_grows (hs : s.foreign = false) (h : s.create path = .ok (file, s')) :
    Grows s s' := by
  obtain ⟨-, -, hs'⟩ := create_eq_ok hs h
  refine ⟨?_, ?_, get_create hs h, fun _ _ => find?_create_of_some hs h⟩
  · rw [hs', hs]
  · rw [hs', List.length_append]
    exact Nat.le_add_right _ _

end Store

end ColumnFile
