import ColumnFile.Proofs.Reader.Group
import ColumnFile.Reader.Basic

/-! # Readers give the rows of a file

A reader of a file whose stripes hold groups of rows. It gives the rows one after another, and each
by its place, and the groups themselves, in whatever order it is asked.

* **`FileFooter.Finds`** — a stripe of a file, as a reader finds it.
* **`Reader.Serves`** — an open reader of a file of some groups; `group_spec` is reading one.
* **`shownFrom`** — the rows that are not hidden, of the groups that are kept.
* **`Reader.Awaits`** — the rows that are still to come; `next_spec`, `row?_spec` and `group_awaits`
  are one request each.
* **`Reader.next_served`**, **`Reader.row?_served`**, **`Reader.group_served`** — the answers after
  any requests.
* **`Reader.Ahead`** — the rows still to come for a reader that hides nothing;
  **`Reader.next_after`** and **`Reader.row?_after`** are its answers. -/

namespace ColumnFile

variable [BlockLibrary] {store : Store} {groups : List (List Row)} {rows : List Row}

/-! ## (1) Stripes -/

/-- **A stripe of a file** holds rows: its octets are there, they are decoded into columns, and the
values out of line are fetched. -/
structure FileFooter.Finds (footer : FileFooter) (store : Store) (file : FileId)
    (toastFile : Option FileId) (info : StripeInformation) (rows : List Row) : Prop where
  within : info.offset + info.length ≤ footer.contentLength
  count : info.rows = rows.length
  read : ∃ stripe columns toasted, store.read file info.offset info.length = .ok stripe ∧
    stripe.length = info.length ∧ footer.decodeStripe info stripe = .ok columns ∧
    Group.fetchToast store toastFile info columns = .ok toasted ∧
    ∀ g : Group, g.schema = footer.schema → g.columns = columns → g.toasted = toasted → g.Holds rows

/-- The counts of rows of stripes are those of their groups. -/
theorem FileFooter.counts_of_finds {footer : FileFooter} {file : FileId} {toastFile : Option FileId}
    {stripes : List StripeInformation}
    (h : List.Forall₂ (footer.Finds store file toastFile) stripes groups) :
    stripes.map (·.rows) = groups.map List.length := by
  induction h with
  | nil => rfl
  | cons hfinds _ ih => rw [List.map_cons, List.map_cons, hfinds.count, ih]

/-! ## (2) Rows that are shown -/

/-- **The rows that are not hidden**, when the first row is at a place of the file. -/
def visibleFrom (hidden : Nat → Bool) : (place : Nat) → List Row → List Row
  | _, [] => []
  | place, row :: rows =>
    if hidden place then visibleFrom hidden (place + 1) rows
    else row :: visibleFrom hidden (place + 1) rows

/-- **The rows that are shown** of groups, when the first group has an index and begins at a place
of the file: those that are not hidden, of the groups that are kept. -/
def shownFrom (keep hidden : Nat → Bool) : (index place : Nat) → List (List Row) → List Row
  | _, _, [] => []
  | index, place, rows :: groups =>
    (if keep index then visibleFrom hidden place rows else []) ++
      shownFrom keep hidden (index + 1) (place + rows.length) groups

/-- The rows that are shown of the groups from an index on. -/
def shownBehind (keep hidden : Nat → Bool) (groups : List (List Row)) (index : Nat) : List Row :=
  shownFrom keep hidden index (groups.take index).flatten.length (groups.drop index)

omit [BlockLibrary] in
/-- One group is shown before those behind it. -/
theorem shownBehind_eq (keep hidden : Nat → Bool) {index : Nat} (h : index < groups.length) :
    shownBehind keep hidden groups index =
      (if keep index then visibleFrom hidden (groups.take index).flatten.length groups[index]
      else []) ++
        shownBehind keep hidden groups (index + 1) := by
  have hplace : (groups.take (index + 1)).flatten.length =
      (groups.take index).flatten.length + groups[index].length := by
    rw [List.take_add_one, List.getElem?_eq_getElem h, List.flatten_append, List.length_append]
    simp
  rw [shownBehind, List.drop_eq_getElem_cons h, shownFrom, shownBehind, hplace]

omit [BlockLibrary] in
/-- All rows are visible when none is hidden. -/
theorem visibleFrom_false (place : Nat) (rows : List Row) :
    visibleFrom (fun _ => false) place rows = rows := by
  induction rows generalizing place with
  | nil => rfl
  | cons row rows ih =>
      rw [visibleFrom, if_neg Bool.false_ne_true, ih]

omit [BlockLibrary] in
/-- What is visible of rows behind others is told from their place. -/
theorem visibleFrom_append (hidden : Nat → Bool) (place : Nat) (rows more : List Row) :
    visibleFrom hidden place (rows ++ more) =
      visibleFrom hidden place rows ++ visibleFrom hidden (place + rows.length) more := by
  induction rows generalizing place with
  | nil => rfl
  | cons row rows ih =>
      rw [List.cons_append, visibleFrom, visibleFrom, ih, List.length_cons, Nat.add_assoc,
        Nat.add_comm 1]
      split
      · rfl
      · rfl

omit [BlockLibrary] in
/-- **When all groups are kept**, the rows that are not hidden are shown. -/
theorem shownFrom_true (hidden : Nat → Bool) (index place : Nat) (groups : List (List Row)) :
    shownFrom (fun _ => true) hidden index place groups =
      visibleFrom hidden place groups.flatten := by
  induction groups generalizing index place with
  | nil => rfl
  | cons rows groups ih =>
      rw [shownFrom, if_pos rfl, ih, List.flatten_cons, visibleFrom_append]

omit [BlockLibrary] in
/-- **The first row that is not skipped** is the first that is visible; there is none when no row
is. -/
theorem firstKept_spec (hidden : Nat → Bool) (offset : Nat) (all : List Row) (place : Nat)
    {count : Nat} (h : count = all.length - place) :
    (Group.firstKept (fun row => hidden (offset + row)) count place = none ∧
      visibleFrom hidden (offset + place) (all.drop place) = []) ∨
    ∃ found row, Group.firstKept (fun row => hidden (offset + row)) count place = some found ∧
      all[found]? = some row ∧ visibleFrom hidden (offset + place) (all.drop place) =
        row :: visibleFrom hidden (offset + (found + 1)) (all.drop (found + 1)) := by
  induction count generalizing place with
  | zero =>
      refine .inl ⟨rfl, ?_⟩
      rw [List.drop_eq_nil_of_le (by omega)]
      rfl
  | succ count ih =>
      have hlt : place < all.length := by omega
      rw [Group.firstKept, List.drop_eq_getElem_cons hlt, visibleFrom]
      by_cases hskipped : hidden (offset + place) = true
      · rw [if_pos hskipped, if_pos hskipped]
        exact ih (place + 1) (by omega)
      · rw [if_neg hskipped, if_neg hskipped]
        exact .inr ⟨place, all[place], rfl, List.getElem?_eq_getElem hlt, rfl⟩

namespace Reader

variable {r r' : Reader}

/-! ## (3) Groups -/

/-- **A reader of a file** whose stripes hold groups of rows, whatever it hides of them. -/
structure Serves (r : Reader) (store : Store) (groups : List (List Row)) : Prop where
  foreign : store.foreign = false
  stripes : ∃ file, r.file = some file ∧
    List.Forall₂ (r.footer.Finds store file r.toastFile) r.footer.stripes groups
  count : r.footer.rows = groups.flatten.length

/-- **A reader of all rows** of a file whose stripes hold groups of rows. It reads all groups, and
no row counts as deleted. -/
structure Opens (r : Reader) (store : Store) (groups : List (List Row)) : Prop where
  foreign : store.foreign = false
  stripes : ∃ file, r.file = some file ∧
    List.Forall₂ (r.footer.Finds store file r.toastFile) r.footer.stripes groups
  count : r.footer.rows = groups.flatten.length
  deleted : r.options.deleted = none
  filter : r.options.filter = none

/-- A reader that was opened serves its groups. -/
theorem Opens.serves (h : r.Opens store groups) : r.Serves store groups :=
  ⟨h.foreign, h.stripes, h.count⟩

omit [BlockLibrary] in
/-- **Octets are loaded** into whatever memory there is. -/
theorem load_spec {file : FileId} {offset length : Nat} {bs : Bytes} (buffer : Option Buffer)
    (hread : store.read file offset length = .ok bs) (hlength : bs.length = length) :
    ∃ b, load store file buffer offset length = (.ok b, b) ∧ b.committed = bs := by
  generalize hcleared : (buffer.getD (Buffer.ofCapacity length)).clear = cleared
  have hused : cleared.used = 0 := by
    rw [← hcleared]
    rfl
  -- there is room for the octets
  have hroom : length ≤ (cleared.reserve length).mem.length ∧
    (cleared.reserve length).used = 0 := by
    unfold Buffer.reserve
    by_cases hfits : length ≤ cleared.available
    · rw [if_pos hfits]
      refine ⟨?_, hused⟩
      rw [Buffer.available, hused, Nat.sub_zero] at hfits
      exact hfits
    · rw [if_neg hfits]
      refine ⟨?_, hused⟩
      show length ≤ (Bytes.resize _ _).length
      rw [Bytes.length_resize, hused]
      omega
  obtain ⟨hmem, hused'⟩ := hroom
  have havailable : (cleared.reserve length).available = (cleared.reserve length).mem.length := by
    rw [Buffer.available, hused', Nat.sub_zero]
    rfl
  have hplace : (cleared.reserve length).place bs = .ok ((cleared.reserve length).put 0 bs) := by
    rw [Buffer.place, havailable, hused', if_neg (by omega)]
  have hput : ((cleared.reserve length).put 0 bs).mem =
      bs ++ (cleared.reserve length).mem.drop length := by
    show Bytes.overwrite _ 0 bs = _
    rw [Bytes.overwrite, List.take_zero, Nat.zero_sub, Nat.zero_add, hlength]
    rfl
  have hcommit : ((cleared.reserve length).put 0 bs).commit length =
      .ok { (cleared.reserve length).put 0 bs with used := length } := by
    have havail : ((cleared.reserve length).put 0 bs).available =
        ((cleared.reserve length).put 0 bs).mem.length := by
      show _ - (cleared.reserve length).used = _
      rw [hused', Nat.sub_zero]
      rfl
    have hfits : ¬ ((cleared.reserve length).put 0 bs).available < length := by
      rw [havail, hput, List.length_append]
      omega
    have hused'' : ((cleared.reserve length).put 0 bs).used + length = length := by
      show (cleared.reserve length).used + length = length
      rw [hused', Nat.zero_add]
    rw [Buffer.commit, if_neg hfits, hused'']
  refine ⟨{ (cleared.reserve length).put 0 bs with used := length }, ?_, ?_⟩
  · rw [load, hread]
    dsimp only
    rw [hcleared, hplace, ok_bind, hcommit]
  · show ((cleared.reserve length).put 0 bs).mem.take length = bs
    rw [hput, List.take_left' hlength]

/-- What a reader serves does not depend on what it has read so far. -/
theorem Serves.congr (h : r.Serves store groups) (hfile : r'.file = r.file)
    (htoast : r'.toastFile = r.toastFile) (hfooter : r'.footer = r.footer) :
    r'.Serves store groups := by
  refine ⟨h.foreign, ?_, ?_⟩
  · rw [hfile, htoast, hfooter]
    exact h.stripes
  · rw [hfooter]
    exact h.count

/-- A reader has as many groups as it serves. -/
theorem Serves.groupCount (h : r.Serves store groups) : r.groupCount = groups.length := by
  obtain ⟨file, -, hstripes⟩ := h.stripes
  exact hstripes.length_eq

/-- **A group is read**: its rows are those of its stripe. -/
theorem group_spec (h : r.Serves store groups) {i : Nat} (hi : groups[i]? = some rows) :
    ∃ g buffer, r.group store i =
        (.ok g, { r with options := { r.options with buffer := some buffer } }) ∧
      g.Holds rows ∧ g.index = i ∧ g.rowOffset = r.groupStart i ∧ g.cursor = 0 := by
  obtain ⟨file, hfile, hstripes⟩ := h.stripes
  obtain ⟨info, hinfo, hwithin, -, stripe, columns, toasted, hread, hlength, hdecode, hfetch,
    hholds⟩ :=
    partner hstripes.flip hi
  obtain ⟨buffer, hload, hcommitted⟩ := load_spec r.options.buffer hread hlength
  have hgroup : ∃ g, r.makeGroup store i info columns = .ok g ∧ g.schema = r.footer.schema ∧
      g.columns = columns ∧ g.toasted = toasted ∧ g.index = i ∧ g.rowOffset = r.groupStart i ∧
      g.cursor = 0 := by
    rw [makeGroup, hfetch]
    exact ⟨_, rfl, rfl, rfl, rfl, rfl, rfl, rfl⟩
  obtain ⟨g, hg, hschema, hcolumns, htoasted, hindex, hstart, hcursor⟩ := hgroup
  refine ⟨g, buffer, ?_, hholds g hschema hcolumns htoasted, hindex, hstart, hcursor⟩
  rw [group, information, hinfo, hfile]
  dsimp only
  rw [if_neg (Nat.not_lt.mpr hwithin), hload]
  dsimp only
  rw [ok_bind, hcommitted, hdecode, ok_bind, hg]

/-- **The place of a group's first row** counts the rows of the groups before it. -/
theorem groupStart_spec (h : r.Serves store groups) (i : Nat) :
    r.groupStart i = (groups.take i).flatten.length := by
  obtain ⟨file, -, hstripes⟩ := h.stripes
  rw [groupStart, ← List.sum_eq_foldr, List.map_take, FileFooter.counts_of_finds hstripes,
    ← List.map_take, List.length_flatten]

/-! ## (4) Row after row -/

/-- **The rows that the current group** has yet to give. -/
def Remains (r : Reader) (hidden : Nat → Bool) (rows : List Row) : Prop :=
  match r.current with
  | none => rows = []
  | some g => ∃ all, g.Holds all ∧
      rows = visibleFrom hidden (g.rowOffset + g.cursor) (all.drop g.cursor)

/-- **Groups kept for rows by place** are groups of the file. -/
def Cached (r : Reader) (groups : List (List Row)) : Prop :=
  ∀ g, r.cached = some g →
    ∃ rows, groups[g.index]? = some rows ∧ g.Holds rows ∧ g.rowOffset = r.groupStart g.index

/-- **The rows still to come**: those that the current group shows, and those of the groups behind
it. -/
structure Awaits (r : Reader) (store : Store) (groups : List (List Row)) (keep hidden : Nat → Bool)
    (rows : List Row) : Prop where
  serves : r.Serves store groups
  keeps : r.keeps = keep
  hides : r.isDeleted = hidden
  cached : r.Cached groups
  place : r.nextGroup ≤ groups.length
  rest : ∃ rest, r.Remains hidden rest ∧ rows = rest ++ shownBehind keep hidden groups r.nextGroup

variable {keep hidden : Nat → Bool}

omit [BlockLibrary] in
/-- **The next row of the current group**, if there is one. -/
theorem nextInGroup_spec (hhides : r.isDeleted = hidden) {rest : List Row}
    (h : r.Remains hidden rest) :
    (rest = [] ∧ r.nextInGroup = (none, { r with current := none })) ∨
      ∃ row more g, rest = row :: more ∧
      r.nextInGroup = (some (.ok row), { r with current := some g }) ∧
        { r with current := some g }.Remains hidden more := by
  unfold Remains at h
  unfold nextInGroup
  cases hcurrent : r.current with
  | none =>
      rw [hcurrent] at h
      refine .inl ⟨h, ?_⟩
      dsimp only
      rw [← hcurrent]
  | some g =>
      rw [hcurrent] at h
      obtain ⟨all, hholds, rfl⟩ := h
      dsimp only
      rw [Group.advance, hhides, hholds.count]
      rcases firstKept_spec hidden g.rowOffset all g.cursor rfl with
        ⟨hnone, hempty⟩ | ⟨found, row, hfound, hrow, hvisible⟩
      · rw [hnone]
        exact .inl ⟨hempty, rfl⟩
      · have hread : ({ g with cursor := found + 1 } : Group).row found = .ok row := hholds.row hrow
        rw [hfound, hvisible]
        refine .inr ⟨row, _, { g with cursor := found + 1 }, rfl, ?_, all,
          ⟨hholds.count, hholds.cells⟩, rfl⟩
        dsimp only [Option.map_some]
        rw [hread]

omit [BlockLibrary] in
/-- A group of which no row is given yet shows all that are not hidden. -/
theorem remains_of_fresh (hidden : Nat → Bool) {g : Group} (hcurrent : r.current = some g)
    (hholds : g.Holds rows) (hcursor : g.cursor = 0) :
    r.Remains hidden (visibleFrom hidden g.rowOffset rows) := by
  rw [Remains, hcurrent]
  refine ⟨rows, hholds, ?_⟩
  rw [hcursor, List.drop_zero, Nat.add_zero]

/-- **The next row of the groups to come**, if there is one. Groups that show no row are left
behind. -/
theorem nextFrom_spec (hserves : r.Serves store groups) (hkeeps : r.keeps = keep)
    (hhides : r.isDeleted = hidden) (hcached : r.Cached groups) {count : Nat}
    (hcount : r.nextGroup + count = groups.length) (hcurrent : r.current = none) :
    ∃ r', nextFrom store count r = (.ok (shownBehind keep hidden groups r.nextGroup).head?, r') ∧
      r'.Awaits store groups keep hidden (shownBehind keep hidden groups r.nextGroup).tail := by
  -- group after group; those that are not kept, and those that show no row, are passed over
  induction count generalizing r with
  | zero =>
      have hnone : shownBehind keep hidden groups r.nextGroup = [] := by
        rw [shownBehind, List.drop_eq_nil_of_le (by omega)]
        rfl
      refine ⟨r, ?_, hserves, hkeeps, hhides, hcached, by omega, [], ?_, ?_⟩
      · rw [nextFrom, hnone]
        rfl
      · rw [Remains, hcurrent]
      · rw [hnone]
        rfl
  | succ count ih =>
      have hlt : r.nextGroup < groups.length := by omega
      have hserves' : { r with nextGroup := r.nextGroup + 1 }.Serves store groups :=
        hserves.congr rfl rfl rfl
      have hkeeps' : { r with nextGroup := r.nextGroup + 1 }.keeps = keep := hkeeps
      rw [nextFrom, hkeeps', shownBehind_eq keep hidden hlt]
      -- the group is read and becomes the current one
      by_cases hkept : keep r.nextGroup = true
      · obtain ⟨g, buffer, hgroup, hholds, -, hstart, hcursor⟩ :=
          group_spec hserves' (List.getElem?_eq_getElem hlt)
        rw [hkept, Bool.not_true, if_neg Bool.false_ne_true, if_pos rfl, hgroup]
        dsimp only
        generalize hr : ({ r with
          nextGroup := r.nextGroup + 1
          options := { r.options with buffer := some buffer }
          current := some g } : Reader) = r₁
        have hserves₁ : r₁.Serves store groups := by
          rw [← hr]
          exact hserves.congr rfl rfl rfl
        have hkeeps₁ : r₁.keeps = keep := by
          rw [← hr]
          exact hkeeps
        have hhides₁ : r₁.isDeleted = hidden := by
          rw [← hr]
          exact hhides
        have hcached₁ : r₁.Cached groups := by
          rw [← hr]
          exact hcached
        have hnext₁ : r₁.nextGroup = r.nextGroup + 1 := by rw [← hr]
        have hremains₁ := remains_of_fresh (r := r₁) hidden (by rw [← hr]) hholds hcursor
        rw [hstart, groupStart_spec hserves'] at hremains₁
        rcases nextInGroup_spec hhides₁ hremains₁ with
          ⟨hempty, hnone⟩ | ⟨row, more, g', hrows, hsome, hmore⟩
        · -- a group that shows no row
          rw [hnone, hempty, List.nil_append, ← hnext₁]
          exact ih (r := { r₁ with current := none }) (hserves₁.congr rfl rfl rfl) hkeeps₁
            hhides₁ hcached₁
            (by show r₁.nextGroup + count = _; omega) rfl
        · rw [hsome, hrows]
          refine ⟨_, rfl, hserves₁.congr rfl rfl rfl, hkeeps₁, hhides₁, hcached₁,
            by show r₁.nextGroup ≤ _; omega, more, hmore, ?_⟩
          rw [← hnext₁]
          rfl
      · rw [Bool.not_eq_true] at hkept
        rw [hkept, Bool.not_false, if_pos rfl, if_neg Bool.false_ne_true, List.nil_append]
        exact ih (r := { r with nextGroup := r.nextGroup + 1 }) hserves' hkeeps' hhides hcached
          (by show r.nextGroup + 1 + count = _; omega) hcurrent

/-- **The next row**: the first of those still to come. -/
theorem next_spec (h : r.Awaits store groups keep hidden rows) :
    ∃ r', r.next store = (.ok rows.head?, r') ∧ r'.Awaits store groups keep hidden rows.tail := by
  obtain ⟨hserves, hkeeps, hhides, hcached, hplace, rest, hrest, rfl⟩ := h
  unfold next
  rcases nextInGroup_spec hhides hrest with ⟨rfl, hnone⟩ | ⟨row, more, g, rfl, hsome, hmore⟩
  · have hcount : ({ r with current := none } : Reader).groupCount = groups.length :=
      hserves.groupCount
    rw [hnone, List.nil_append]
    dsimp only
    rw [hcount]
    exact nextFrom_spec (r := { r with current := none }) (hserves.congr rfl rfl rfl) hkeeps
      hhides hcached
      (by show r.nextGroup + _ = _; omega) rfl
  · rw [hsome]
    exact ⟨_, rfl, hserves.congr rfl rfl rfl, hkeeps, hhides, hcached, hplace, more, hmore, rfl⟩

/-! ## (5) Rows by their places -/

omit [BlockLibrary] in
/-- **The group that has a row**, among groups that are joined. -/
theorem exists_group_of_lt {place : Nat} (h : place < groups.flatten.length) :
    ∃ i rows, groups[i]? = some rows ∧ (groups.take i).flatten.length ≤ place ∧
      place < (groups.take (i + 1)).flatten.length ∧
      rows[place - (groups.take i).flatten.length]? = groups.flatten[place]? := by
  induction groups generalizing place with
  | nil => exact absurd h (Nat.not_lt_zero _)
  | cons first groups ih =>
      by_cases hfirst : place < first.length
      · refine ⟨0, first, rfl, Nat.zero_le _, ?_, ?_⟩
        · rw [List.take_succ_cons, List.flatten_cons, List.length_append]
          omega
        · rw [List.flatten_cons, List.getElem?_append_left hfirst]
          rfl
      · rw [List.flatten_cons, List.length_append] at h
        have hrest : place - first.length < groups.flatten.length := by omega
        obtain ⟨i, rows, hrows, hle, hlt, hget⟩ := ih hrest
        refine ⟨i + 1, rows, hrows, ?_, ?_, ?_⟩
        · rw [List.take_succ_cons, List.flatten_cons, List.length_append]
          omega
        · rw [List.take_succ_cons, List.flatten_cons, List.length_append]
          omega
        · rw [List.flatten_cons, List.getElem?_append_right (Nat.not_lt.mp hfirst), ← hget,
            List.take_succ_cons, List.flatten_cons, List.length_append, Nat.sub_add_eq]

omit [BlockLibrary] in
/-- How many numbers below a bound are at most another one. -/
theorem countP_range_le {p : Nat → Bool} {i : Nat} (hp : ∀ k, p k = true ↔ k ≤ i) (count : Nat) :
    (List.range count).countP p = min count (i + 1) := by
  induction count with
  | zero => rfl
  | succ count ih =>
      rw [List.range_succ, List.countP_append, ih]
      by_cases hle : count ≤ i
      · rw [List.countP_cons_of_pos ((hp count).mpr hle), List.countP_nil]
        omega
      · rw [List.countP_cons_of_neg fun h => hle ((hp count).mp h), List.countP_nil]
        omega

/-- **The place of the group that has a row** is found. -/
theorem groupOf_spec (h : r.Serves store groups) {i place : Nat} (hi : i < groups.length)
    (hle : (groups.take i).flatten.length ≤ place)
    (hlt : place < (groups.take (i + 1)).flatten.length) : r.groupOf place = i := by
  have hmono : ∀ {a b : Nat}, a ≤ b →
      (groups.take a).flatten.length ≤ (groups.take b).flatten.length := by
    intro a b hab
    have hprefix : (groups.take b).take a = groups.take a := by
      rw [List.take_take, Nat.min_eq_left hab]
    rw [← List.take_append_drop a (groups.take b), hprefix, List.flatten_append, List.length_append]
    exact Nat.le_add_right _ _
  -- exactly the groups up to the one that has the row do not begin behind it
  have hbegin : ∀ k, (decide (r.groupStart k ≤ place)) = true ↔ k ≤ i := by
    intro k
    rw [decide_eq_true_eq, groupStart_spec h]
    constructor
    · intro hk
      by_contra hgt
      have hbehind := hmono (a := i + 1) (Nat.not_le.mp hgt)
      omega
    · intro hk
      exact Nat.le_trans (hmono hk) hle
  rw [groupOf, h.groupCount, countP_range_le hbegin]
  omega

/-- **A row by its place**: the row of the file there, unless it is hidden. It does not change which
rows are to come. -/
theorem row?_spec (h : r.Awaits store groups keep hidden rows) {place : Nat}
    (hplace : place < groups.flatten.length) :
    ∃ r', r.row? store place = (.ok (if hidden place then none else groups.flatten[place]?), r') ∧
      r'.Awaits store groups keep hidden rows := by
  by_cases hhidden : hidden place = true
  · refine ⟨r, ?_, h⟩
    rw [row?, h.serves.count, if_neg (Nat.not_le.mpr hplace), h.hides, if_pos hhidden,
      if_pos hhidden]
  obtain ⟨hserves, hkeeps, hhides, hcached, hnext, rest, hrest, rfl⟩ := h
  obtain ⟨i, all, hall, hle, hlt, hget⟩ := exists_group_of_lt hplace
  have hi : i < groups.length := (List.getElem?_eq_some_iff.mp hall).1
  have hgroup := groupOf_spec hserves hi hle hlt
  have hrow : groups.flatten[place]? = some groups.flatten[place] := List.getElem?_eq_getElem hplace
  -- whichever way the group is found, it is the one that has the row
  have hfound : ∀ {g : Group}, g.Holds all → g.rowOffset = r.groupStart i →
      (g.row (place - g.rowOffset)).map some = .ok groups.flatten[place]? := by
    intro g hholds hstart
    rw [hstart, groupStart_spec hserves, hholds.row (hget.trans hrow), hrow]
    rfl
  rw [row?, hserves.count, if_neg (Nat.not_le.mpr hplace), hhides, if_neg hhidden,
    if_neg hhidden, hgroup]
  dsimp only
  cases hkept : r.cached.filter (·.index = i) with
  | some g =>
      obtain ⟨hg, hindex⟩ := Option.filter_eq_some_iff.mp hkept
      rw [decide_eq_true_eq] at hindex
      obtain ⟨all', hall', hholds, hstart⟩ := hcached g hg
      rw [hindex] at hall' hstart
      cases hall.symm.trans hall'
      dsimp only
      rw [hfound hholds hstart]
      refine ⟨_, rfl, hserves.congr rfl rfl rfl, hkeeps, hhides, ?_, hnext, rest, hrest, rfl⟩
      intro g' hg'
      cases hg'
      rw [hindex]
      exact ⟨_, hall, hholds, hstart⟩
  | none =>
      obtain ⟨g, buffer, hread, hholds, hindex, hstart, -⟩ := group_spec hserves hall
      dsimp only
      rw [hread]
      dsimp only
      rw [hfound hholds hstart]
      refine ⟨_, rfl, hserves.congr rfl rfl rfl, hkeeps, hhides, ?_, hnext, rest, hrest, rfl⟩
      intro g' hg'
      cases hg'
      rw [hindex]
      exact ⟨_, hall, hholds, hstart⟩

/-- **Reading a group**, or failing to, does not change which rows are to come. -/
theorem group_awaits (h : r.Awaits store groups keep hidden rows) (i : Nat) :
    (r.group store i).2.Awaits store groups keep hidden rows := by
  cases hi : groups[i]? with
  | some all =>
      obtain ⟨g, buffer, hread, -⟩ := group_spec h.serves hi
      rw [hread]
      exact ⟨h.serves.congr rfl rfl rfl, h.keeps, h.hides, h.cached, h.place, h.rest⟩
  | none =>
      have hcount : r.footer.stripes.length = groups.length := h.serves.groupCount
      have hinfo : r.footer.stripes[i]? = none := by
        rw [List.getElem?_eq_none_iff] at hi ⊢
        omega
      rw [group, information, hinfo]
      exact h

/-! ## (6) Any requests -/

/-- A **request** to a reader. -/
inductive Request
  /-- The next row. -/
  | next
  /-- The row at a place. -/
  | row (place : Nat)
  /-- A group. -/
  | group (index : Nat)
deriving DecidableEq, Repr, Inhabited

/-- The reader after a request, whatever it answered. -/
def serve (store : Store) (r : Reader) : Request → Reader
  | .next => (r.next store).2
  | .row place => (r.row? store place).2
  | .group index => (r.group store index).2

/-- The reader after some requests. -/
def served (store : Store) (requests : List Request) (r : Reader) : Reader :=
  requests.foldl (serve store) r

/-- **Whatever is asked for**, the rows to come are those behind the rows that were asked for in
turn. -/
theorem served_spec (h : r.Awaits store groups keep hidden rows) (requests : List Request) :
    (r.served store requests).Awaits store groups keep hidden
      (rows.drop (requests.count .next)) := by
  induction requests generalizing r rows with
  | nil => exact h
  | cons first requests ih =>
      show (Reader.served store requests (r.serve store first)).Awaits store groups keep hidden _
      cases first with
      | next =>
          obtain ⟨r', hnext, hawaits⟩ := next_spec h
          rw [serve, hnext, List.count_cons_self, ← List.drop_tail]
          exact ih hawaits
      | row place =>
          rw [List.count_cons_of_ne (by rintro ⟨⟩), serve]
          by_cases hplace : place < groups.flatten.length
          · obtain ⟨r', hrow, hawaits⟩ := row?_spec h hplace
            rw [hrow]
            exact ih hawaits
          · rw [row?, h.serves.count, if_pos (Nat.not_lt.mp hplace)]
            exact ih h
      | group index =>
          rw [List.count_cons_of_ne (by rintro ⟨⟩), serve]
          exact ih (group_awaits h index)

/-- **The next row after any requests** is the one behind those that were asked for in turn. -/
theorem next_served (h : r.Awaits store groups keep hidden rows) (requests : List Request) :
    ((r.served store requests).next store).1 = .ok rows[requests.count .next]? := by
  obtain ⟨r', hnext, -⟩ := next_spec (served_spec h requests)
  rw [hnext, List.head?_drop]

/-- **A row by its place after any requests** is the row of the file there, unless it is hidden. -/
theorem row?_served (h : r.Awaits store groups keep hidden rows) (requests : List Request)
    {place : Nat} (hplace : place < groups.flatten.length) :
    ((r.served store requests).row? store place).1 =
      .ok (if hidden place then none else groups.flatten[place]?) := by
  obtain ⟨r', hrow, -⟩ := row?_spec (served_spec h requests) hplace
  rw [hrow]

/-- **A group after any requests** has the rows of the file from its first row on. -/
theorem group_served (h : r.Awaits store groups keep hidden rows) (requests : List Request)
    {i : Nat} {all : List Row} (hi : groups[i]? = some all) :
    ∃ g, ((r.served store requests).group store i).1 = .ok g ∧ g.rows = all.length ∧
      g.rowOffset = (groups.take i).flatten.length ∧
      ∀ j, j < all.length → ∃ row, groups.flatten[g.rowOffset + j]? = some row ∧
      g.row j = .ok row := by
  have hserves := (served_spec h requests).serves
  obtain ⟨g, buffer, hread, hholds, -, hstart, -⟩ := group_spec hserves hi
  have hoffset : g.rowOffset = (groups.take i).flatten.length :=
    hstart.trans (groupStart_spec hserves i)
  rw [hread]
  refine ⟨g, rfl, hholds.count, hoffset, ?_⟩
  intro j hj
  have hrow : all[j]? = some all[j] := List.getElem?_eq_getElem hj
  refine ⟨all[j], ?_, hholds.row hrow⟩
  obtain ⟨hlt, hall⟩ := List.getElem?_eq_some_iff.mp hi
  -- the rows of the file, split before and behind the group
  have hsplit : groups.flatten =
      (groups.take i).flatten ++ (all ++ (groups.drop (i + 1)).flatten) := by
    rw [← hall, ← List.flatten_cons, ← List.drop_eq_getElem_cons hlt, ← List.flatten_append,
      List.take_append_drop]
  rw [hoffset, hsplit, List.getElem?_append_right (Nat.le_add_right _ _), Nat.add_sub_cancel_left,
    List.getElem?_append_left hj, hrow]

/-! ## (7) Readers that were just opened -/

/-- **A reader that was just opened** has read nothing. -/
structure Fresh (r : Reader) : Prop where
  current : r.current = none
  nextGroup : r.nextGroup = 0
  cached : r.cached = none

/-- **A reader that was just opened** awaits all rows that it shows. -/
theorem Serves.awaits (h : r.Serves store groups) (hfresh : r.Fresh) :
    r.Awaits store groups r.keeps r.isDeleted (shownFrom r.keeps r.isDeleted 0 0 groups) := by
  refine ⟨h, rfl, rfl, ?_, ?_, [], ?_, ?_⟩
  · intro g hg
    rw [hfresh.cached] at hg
    cases hg
  · rw [hfresh.nextGroup]
    exact Nat.zero_le _
  · rw [Remains, hfresh.current]
  · rw [hfresh.nextGroup]
    rfl

/-! ## (8) Readers that hide nothing -/

/-- The rows that the current group has yet to give. -/
def Current (r : Reader) (rows : List Row) : Prop :=
  match r.current with
  | none => rows = []
  | some g => ∃ all, g.Holds all ∧ rows = all.drop g.cursor

/-- **The rows still to come**: those of the current group, and those of the groups behind it. -/
structure Ahead (r : Reader) (store : Store) (groups : List (List Row)) (rows : List Row) :
    Prop where
  opens : r.Opens store groups
  cached : r.Cached groups
  place : r.nextGroup ≤ groups.length
  rest : ∃ rest, r.Current rest ∧ rows = rest ++ (groups.drop r.nextGroup).flatten

/-- A reader of all rows that was just opened has all of them ahead. -/
theorem Opens.ahead (h : r.Opens store groups) (hfresh : r.Fresh) :
    r.Ahead store groups groups.flatten := by
  refine ⟨h, ?_, ?_, [], ?_, ?_⟩
  · intro g hg
    rw [hfresh.cached] at hg
    cases hg
  · rw [hfresh.nextGroup]
    exact Nat.zero_le _
  · rw [Current, hfresh.current]
  · rw [hfresh.nextGroup]
    rfl

/-- A reader that hides nothing awaits the rows that are ahead. -/
theorem Ahead.awaits (h : r.Ahead store groups rows) :
    r.Awaits store groups (fun _ => true) (fun _ => false) rows := by
  obtain ⟨hopens, hcached, hplace, rest, hrest, rfl⟩ := h
  refine ⟨hopens.serves, ?_, ?_, hcached, hplace, rest, ?_, ?_⟩
  · funext index
    rw [keeps, hopens.filter]
  · funext row
    rw [isDeleted, hopens.deleted]
    rfl
  · unfold Current at hrest
    unfold Remains
    cases hcurrent : r.current with
    | none =>
        rw [hcurrent] at hrest
        exact hrest
    | some g =>
        rw [hcurrent] at hrest
        obtain ⟨all, hholds, hrows⟩ := hrest
        exact ⟨all, hholds, by rw [visibleFrom_false, hrows]⟩
  · rw [shownBehind, shownFrom_true, visibleFrom_false]

/-- A **call** of a reader for a row. -/
inductive Call
  /-- The next row. -/
  | next
  /-- The row at a place. -/
  | row (place : Nat)
deriving DecidableEq, Repr, Inhabited

/-- The reader after a call, whatever it answered. -/
def call (store : Store) (r : Reader) : Call → Reader
  | .next => (r.next store).2
  | .row place => (r.row? store place).2

/-- The reader after some calls. -/
def after (store : Store) (calls : List Call) (r : Reader) : Reader := calls.foldl (call store) r

/-- A call as a request. -/
def Call.request : Call → Request
  | .next => .next
  | .row place => .row place

omit [BlockLibrary] in
/-- Requests for rows in turn are counted as the calls are. -/
theorem count_request (calls : List Call) :
    (calls.map Call.request).count .next = calls.count .next := by
  induction calls with
  | nil => rfl
  | cons first calls ih =>
      rw [List.map_cons, List.count_cons, List.count_cons, ih]
      cases first <;> rfl

/-- Calls are served as requests. -/
theorem after_eq_served (store : Store) (calls : List Call) (r : Reader) :
    r.after store calls = r.served store (calls.map Call.request) := by
  rw [after, served, List.foldl_map]
  congr 1
  funext r first
  cases first <;> rfl

/-- **The next row after any calls** is the one behind those that were asked for in turn. -/
theorem next_after (h : r.Ahead store groups rows) (calls : List Call) :
    ((r.after store calls).next store).1 = .ok rows[calls.count .next]? := by
  rw [after_eq_served, next_served h.awaits, count_request]

/-- **A row by its place after any calls** is the row of the file there. -/
theorem row?_after (h : r.Ahead store groups rows) (calls : List Call) {place : Nat}
    (hplace : place < groups.flatten.length) :
    ((r.after store calls).row? store place).1 = .ok groups.flatten[place]? := by
  rw [after_eq_served, row?_served h.awaits _ hplace, if_neg Bool.false_ne_true]

end Reader

end ColumnFile
