import ColumnFile.Proofs.MessagePack.Shape

/-! # What a reader accepts

Numbers and sizes are read from a few octets, so whatever a reader makes of a message is within the
bounds of one: a writer could have written it. That goes for a message from anywhere.

* **`Head.sized_of_read`** — beginnings; **`Value.sized_of_read`**, **`Value.sized_of_decode?`** —
  values.
* **`Shape.Yields`** — what holds of everything that a shape reads; `Shape.nat_yields`,
  `Shape.list_yields`, `Shape.option_yields` and **`Shape.record_yields`** are the shapes, and
  `Fields.of_get` the fields of a record. -/

namespace ColumnFile.MessagePack

variable {bs rest : Bytes} {n : Nat}

/-! ## (1) Beginnings -/

/-- A front has the length that was asked for. -/
theorem length_of_take? {front : Bytes} (h : Bytes.take? bs n = some (front, rest)) :
    front.length = n := by
  unfold Bytes.take? at h
  dsimp only at h
  split at h
  · rename_i hlength
    cases h
    exact hlength
  · cases h

/-- A number of some octets. -/
theorem lt_of_readNat {width : Nat} (h : readNat width bs = some (n, rest)) : n < 256 ^ width := by
  obtain ⟨⟨front, rest'⟩, hfront, h⟩ := Option.bind_eq_some_iff.mp h
  cases h
  have hlt := Bytes.toNatBE_lt front
  rwa [length_of_take? hfront] at hlt

namespace Head

/-- **A beginning** within the bounds of a message: what it announces is, or the size of that. -/
def Sized : Head → Prop
  | whole v => v.Sized 0
  | text size | binary size | extension size => size < 2 ^ 32
  | array count | map count => count < 2 ^ 32

variable {head : Head}

/-- A beginning that goes by a number of some octets. -/
theorem of_sized {announce : Nat → Head} {width : Nat}
    (h : sized announce width bs = some (head, rest)) :
    ∃ n < 256 ^ width, head = announce n := by
  obtain ⟨⟨n, rest'⟩, hn, h⟩ := Option.bind_eq_some_iff.mp h
  cases h
  exact ⟨n, lt_of_readNat hn, rfl⟩

/-- A size of at most four octets. -/
theorem sized_of_sized {announce : Nat → Head} {width : Nat}
    (h : sized announce width bs = some (head, rest)) (hwidth : width ≤ 4)
    (hannounce : ∀ n < 2 ^ 32, (announce n).Sized) : head.Sized := by
  obtain ⟨n, hn, rfl⟩ := of_sized h
  exact hannounce n (Nat.lt_of_lt_of_le hn (Nat.pow_le_pow_right (by decide) hwidth))

/-- A number of the unsigned family of at most eight octets. -/
theorem sized_of_natOf {width : Nat} (hwidth : width ≤ 8) (h : natOf width bs = some (head, rest)) :
    head.Sized := by
  obtain ⟨n, hn, rfl⟩ := of_sized h
  exact .nat (Nat.lt_of_lt_of_le hn (Nat.pow_le_pow_right (by decide) hwidth))

/-- A number of the signed family of at most eight octets. -/
theorem sized_of_intOf {width : Nat} (hwidth : width ≤ 8) (h : intOf width bs = some (head, rest)) :
    head.Sized := by
  obtain ⟨⟨v, rest'⟩, hv, h⟩ := Option.bind_eq_some_iff.mp h
  cases h
  obtain ⟨⟨n, rest''⟩, hn, hv⟩ := Option.bind_eq_some_iff.mp hv
  cases hv
  have hpos : 0 < 1 <<< (8 * width) := by
    rw [Nat.one_shiftLeft]
    exact Nat.two_pow_pos _
  have hwide : 1 <<< (8 * width) ≤ 2 ^ 64 := by
    rw [Nat.one_shiftLeft]
    exact Nat.pow_le_pow_right (by decide) (by omega)
  have hlow := Int.le_bmod (x := (n : Int)) hpos
  have hhigh := Int.bmod_lt (x := (n : Int)) hpos
  exact .int (by omega) (by omega)

/-- What a first octet of the upper half announces: a value of its own, a size, or a number. -/
theorem sized_of_readTagged {tag : Nat} (h : readTagged tag bs = some (head, rest)) :
    head.Sized := by
  unfold readTagged at h
  split at h
  case h_1 =>
    cases h
    exact .nil
  case h_2 | h_3 =>
    cases h
    exact .bool _
  case h_4 | h_5 | h_6 | h_7 | h_8 | h_9 => exact sized_of_sized h (by decide) fun _ hn => hn
  case h_10 => exact sized_of_sized h (by decide) fun _ _ => Value.Sized.single _
  case h_11 =>
    obtain ⟨n, -, rfl⟩ := of_sized h
    exact Value.Sized.double _
  case h_12 | h_13 | h_14 | h_15 => exact sized_of_natOf (by decide) h
  case h_16 | h_17 | h_18 | h_19 => exact sized_of_intOf (by decide) h
  case h_20 | h_21 | h_22 | h_23 | h_24 =>
    cases h
    show _ < _
    decide
  case h_25 | h_26 | h_27 | h_28 | h_29 | h_30 | h_31 =>
    exact sized_of_sized h (by decide) fun _ hn => hn
  case h_32 => cases h

/-- **A beginning that is read** is within the bounds of a message. -/
theorem sized_of_read (h : read bs = some (head, rest)) : head.Sized := by
  cases bs with
  | nil => cases h
  | cons b bs =>
      have hb : b.toNat < 256 := b.toNat_lt
      rw [read] at h
      generalize b.toNat = n at hb h
      -- the first octet tells the head; what it counts itself is far below the bounds
      by_cases hnat : n < 0x80
      · rw [if_pos hnat] at h
        cases h
        exact .nat (by omega)
      rw [if_neg hnat] at h
      by_cases hmap : n < 0x90
      · rw [if_pos hmap] at h
        cases h
        show n - 0x80 < 2 ^ 32
        omega
      rw [if_neg hmap] at h
      by_cases harray : n < 0xa0
      · rw [if_pos harray] at h
        cases h
        show n - 0x90 < 2 ^ 32
        omega
      rw [if_neg harray] at h
      by_cases htext : n < 0xc0
      · rw [if_pos htext] at h
        cases h
        show n - 0xa0 < 2 ^ 32
        omega
      rw [if_neg htext] at h
      by_cases htagged : n < 0xe0
      · rw [if_pos htagged] at h
        exact sized_of_readTagged h
      rw [if_neg htagged] at h
      cases h
      exact .int (by omega) (by omega)

end Head

/-! ## (2) Values -/

/-- **Items that are read** one after another: as many as were asked for, each by the reader of
one. -/
theorem of_readMany {α : Type} {item : Bytes → Option (α × Bytes)} {P : α → Prop} {items : List α}
    (hitem : ∀ {bs rest a}, item bs = some (a, rest) → P a)
    (h : readMany item n bs = some (items, rest)) :
    items.length = n ∧ ∀ a ∈ items, P a := by
  induction n generalizing bs items with
  | zero =>
      cases h
      exact ⟨rfl, fun _ ha => nomatch ha⟩
  | succ n ih =>
      obtain ⟨⟨a, rest₁⟩, ha, h⟩ := Option.bind_eq_some_iff.mp h
      obtain ⟨⟨more, rest₂⟩, hmore, h⟩ := Option.bind_eq_some_iff.mp h
      cases h
      obtain ⟨hlength, hall⟩ := ih hmore
      exact ⟨congrArg (· + 1) hlength, List.forall_mem_cons.mpr ⟨hitem ha, hall⟩⟩

/-- Both parts of a pair are read as its items are. -/
theorem of_readPair {α : Type} {item : Bytes → Option (α × Bytes)} {P : α → Prop} {pair : α × α}
    (hitem : ∀ {bs rest a}, item bs = some (a, rest) → P a)
    (h : readPair item bs = some (pair, rest)) :
    P pair.1 ∧ P pair.2 := by
  obtain ⟨⟨a, rest₁⟩, ha, h⟩ := Option.bind_eq_some_iff.mp h
  obtain ⟨⟨b, rest₂⟩, hb, h⟩ := Option.bind_eq_some_iff.mp h
  cases h
  exact ⟨hitem ha, hitem hb⟩

namespace Value

variable {v : Value} {depth : Nat}

/-- What a beginning of some size announces, if as much follows. -/
theorem sized_of_take? {build : Bytes → Value} (hsize : n < 2 ^ 32)
    (hbuild : ∀ s : Bytes, s.length < 2 ^ 32 → (build s).Sized depth)
    (h : (Bytes.take? bs n).map (fun (s, rest) => (build s, rest)) = some (v, rest)) :
    v.Sized depth := by
  obtain ⟨⟨s, rest'⟩, hs, hv⟩ := Option.map_eq_some_iff.mp h
  cases hv
  exact hbuild s (by rwa [length_of_take? hs])

/-- What a beginning announces, when `item` reads what is inside, one level deeper. -/
theorem sized_of_readBody {item : Option (Bytes → Option (Value × Bytes))} {head : Head}
    (hhead : head.Sized) (hitem : ∀ inner, item = some inner → ∃ below, depth = below + 1 ∧
      ∀ {bs rest : Bytes} {v : Value}, inner bs = some (v, rest) → v.Sized below)
    (h : readBody item head bs = some (v, rest)) : v.Sized depth := by
  -- items and entries are sized one level below
  cases head with
  | whole w =>
      cases h
      exact Sized.mono hhead (Nat.zero_le depth)
  | text size => exact sized_of_take? hhead (fun _ => .text) h
  | binary size => exact sized_of_take? hhead (fun _ => .binary) h
  | extension size =>
      cases bs with
      | nil => cases h
      | cons tag bs => exact sized_of_take? hhead (fun _ => .extension tag) h
  | array count =>
      obtain ⟨inner, hinner, h⟩ := Option.bind_eq_some_iff.mp h
      obtain ⟨⟨items, rest'⟩, hitems, h⟩ := Option.bind_eq_some_iff.mp h
      cases h
      obtain ⟨below, rfl, hbelow⟩ := hitem inner hinner
      obtain ⟨hlength, hall⟩ := of_readMany (P := fun v : Value => v.Sized below) hbelow hitems
      exact .array (hlength ▸ hhead) hall
  | map count =>
      obtain ⟨inner, hinner, h⟩ := Option.bind_eq_some_iff.mp h
      obtain ⟨⟨entries, rest'⟩, hentries, h⟩ := Option.bind_eq_some_iff.mp h
      cases h
      obtain ⟨below, rfl, hbelow⟩ := hitem inner hinner
      obtain ⟨hlength, hall⟩ :=
        of_readMany (P := fun e : Value × Value => e.1.Sized below ∧ e.2.Sized below)
        (of_readPair (P := fun v : Value => v.Sized below) hbelow) hentries
      exact .map (hlength ▸ hhead) (fun e he => (hall e he).1) fun e he => (hall e he).2

/-- **A value that is read** is within the bounds of a message. By induction on how deep it may be
nested. -/
theorem sized_of_read (h : read depth bs = some (v, rest)) : v.Sized depth := by
  induction depth generalizing bs rest v with
  | zero =>
      obtain ⟨⟨head, rest'⟩, hhead, h⟩ := Option.bind_eq_some_iff.mp h
      refine sized_of_readBody (Head.sized_of_read hhead) ?_ h
      rintro inner ⟨⟩
  | succ depth ih =>
      obtain ⟨⟨head, rest'⟩, hhead, h⟩ := Option.bind_eq_some_iff.mp h
      refine sized_of_readBody (Head.sized_of_read hhead) ?_ h
      rintro inner ⟨⟩
      exact ⟨depth, rfl, ih⟩

/-- **The value of a message** is within its bounds. -/
theorem sized_of_decode? (h : decode? bs = some v) : v.Sized maxDepth := by
  obtain ⟨⟨w, rest⟩, hread, rfl⟩ := Option.map_eq_some_iff.mp h
  exact sized_of_read hread

/-- **A value is held** by a message: it is within the bounds of one, however deep it is nested. -/
def Held (v : Value) : Prop := ∃ depth, v.Sized depth

/-- An octet by itself holds what it says. -/
theorem held_ofOctet (b : UInt8) : (ofOctet b).Held := by
  have hb : b.toNat < 256 := b.toNat_lt
  exact ⟨0, .int (by omega) (by omega)⟩

end Value

/-! ## (3) Shapes -/

/-- **Items that are mapped**: as many as there were, each made of one of them. -/
theorem of_mapM {α β : Type} {f : α → Option β} {l : List α} {bs : List β}
    (h : l.mapM f = some bs) :
    bs.length = l.length ∧ ∀ b ∈ bs, ∃ a ∈ l, f a = some b := by
  induction l generalizing bs with
  | nil =>
      cases h
      exact ⟨rfl, fun _ hb => nomatch hb⟩
  | cons a l ih =>
      rw [List.mapM_cons] at h
      obtain ⟨b, hb, h⟩ := Option.bind_eq_some_iff.mp h
      obtain ⟨more, hmore, h⟩ := Option.bind_eq_some_iff.mp h
      cases h
      obtain ⟨hlength, hall⟩ := ih hmore
      refine ⟨congrArg (· + 1) hlength, List.forall_mem_cons.mpr ⟨⟨a, List.mem_cons_self, hb⟩, ?_⟩⟩
      intro c hc
      obtain ⟨x, hx, hfx⟩ := hall c hc
      exact ⟨x, List.mem_cons_of_mem a hx, hfx⟩

namespace Shape

variable {α β : Type} {s : Shape α} {P : α → Prop}

/-- **What a shape reads** of a message has a property, and so has what it puts in the place of a
field that is not there. -/
structure Yields (s : Shape α) (P : α → Prop) : Prop where
  /-- What is read of a value. -/
  read : ∀ {levels v a}, v.Held → s.read levels v = some a → P a
  /-- What a field stands for that is not named. -/
  unnamed : ∀ {a}, s.unnamed = some a → P a
  /-- What a field stands for that is behind the end. -/
  behind : ∀ {a}, s.behind = some a → P a

/-- Every value of its type may be what a shape reads. -/
theorem yields_any (s : Shape α) : s.Yields fun _ => True :=
  ⟨fun _ _ => trivial, fun _ => trivial, fun _ => trivial⟩

/-- **Numbers** have as many digits as they may have. -/
theorem nat_yields (width : Nat) : (nat width).Yields (· < 2 ^ width) where
  read := by
    intro levels v n _ h
    obtain ⟨i, -, h⟩ := Option.bind_eq_some_iff.mp h
    split at h
    · rename_i hrange
      cases h
      rw [Nat.one_shiftLeft] at hrange
      omega
    · cases h
  unnamed h := nomatch h
  behind h := nomatch h

/-- **Lists** are no longer than a size can count, and their items are read by the shape of one. -/
theorem list_yields (h : s.Yields P) : (list s).Yields fun l =>
    l.length < 2 ^ 32 ∧ ∀ a ∈ l, P a where
  read := by
    rintro levels v l ⟨depth, hv⟩ hread
    unfold list at hread
    dsimp only at hread
    split at hread
    · -- an array counts its items, and they are read one level deeper
      obtain ⟨hlength, hall⟩ := of_mapM hread
      cases hv with
      | array hcount hitems =>
          refine ⟨hlength ▸ hcount, fun a ha => ?_⟩
          obtain ⟨item, hitem, hreads⟩ := hall a ha
          exact h.read ⟨_, hitems item hitem⟩ hreads
    · -- a byte string is read as the numbers of its octets
      obtain ⟨hlength, hall⟩ := of_mapM hread
      cases hv with
      | binary hcount =>
          refine ⟨hlength ▸ hcount, fun a ha => ?_⟩
          obtain ⟨b, -, hreads⟩ := hall a ha
          exact h.read (Value.held_ofOctet b) hreads
    · cases hread
  unnamed h := nomatch h
  behind h := nomatch h

/-- **A value that may be absent** is read by its own shape if it is there. -/
theorem option_yields (h : s.Yields P) : (option s).Yields fun o => ∀ a, o = some a → P a where
  read := by
    intro levels v o hv hread
    unfold option at hread
    dsimp only at hread
    split at hread
    · cases hread
      exact fun _ hnone => nomatch hnone
    · obtain ⟨a, ha, rfl⟩ := Option.map_eq_some_iff.mp hread
      rintro _ ⟨⟩
      exact h.read hv ha
  unnamed := by
    rintro o ho
    cases ho
    exact fun _ hnone => nomatch hnone
  behind h := nomatch h

end Shape

/-! ## (4) Records -/

namespace Fields

variable {α : Type} {names : List String} {levels : Nat} {v : Value} {f : Fields}

/-- **The fields of a record are held** by a message: all of their values are. -/
def Held (f : Fields) : Prop := ∀ e ∈ f.entries, e.2.Held

/-- The fields found in a map have values of it. -/
theorem held_collect {entries : List (Value × Value)} {found all : List (String × Value)}
    (hfound : ∀ e ∈ found, e.2.Held) (hentries : ∀ e ∈ entries, e.2.Held)
    (h : collect names levels found entries = some all) : ∀ e ∈ all, e.2.Held := by
  induction entries generalizing found with
  | nil =>
      cases h
      exact hfound
  | cons entry rest ih =>
      obtain ⟨key, v⟩ := entry
      obtain ⟨hv, hrest⟩ := List.forall_mem_cons.mp hentries
      rw [collect] at h
      split at h
      · cases h
      · split at h
        · exact ih hfound hrest h
        · cases h
      · split at h
        · cases h
        · -- a field that was not found before is added with the value of its entry
          refine ih (fun e he => ?_) hrest h
          rcases List.mem_append.mp he with he | he
          · exact hfound e he
          · rw [List.mem_singleton.mp he]
            exact hv

/-- **The fields that a value has** are held if the value is. -/
theorem held_of_ofValue? (hv : v.Held) (h : ofValue? names levels v = some f) : f.Held := by
  obtain ⟨depth, hv⟩ := hv
  unfold ofValue? at h
  split at h
  · obtain ⟨all, hall, rfl⟩ := Option.map_eq_some_iff.mp h
    cases hv with
    | map _ _ hvalues =>
        refine held_collect ?_ (fun e he => ⟨_, hvalues e he⟩) hall
        rintro e ⟨⟩
  · split at h
    · cases h
    · cases h
      cases hv with
      | array _ hitems => exact fun e he => ⟨_, hitems e.2 (List.of_mem_zip he).2⟩
  · cases h
    intro e he
    obtain ⟨b, -, hb⟩ := List.mem_map.mp (List.of_mem_zip he).2
    rw [← hb]
    exact Value.held_ofOctet b
  · cases h

/-- **A field** is read by its shape. -/
theorem of_get {s : Shape α} {P : α → Prop} {name : String} {a : α} (hf : f.Held) (hs : s.Yields P)
    (h : f.get name s = some a) : P a := by
  rw [get] at h
  split at h
  · rename_i hlookup
    obtain ⟨front, back, hentries, -⟩ := List.lookup_eq_some_iff.mp hlookup
    refine hs.read (hf (name, _) ?_) h
    rw [hentries]
    exact List.mem_append_right front List.mem_cons_self
  · split at h
    · exact hs.unnamed h
    · exact hs.behind h

end Fields

/-- **Records** are made of fields that a message holds. -/
theorem Shape.record_yields {α : Type} {names : List String} {write : α → List Value}
    {read : Fields → Option α} {P : α → Prop} (h : ∀ f a, f.Held → read f = some a → P a) :
    (record names write read).Yields P where
  read := by
    intro levels v a hv hread
    obtain ⟨f, hf, ha⟩ := Option.bind_eq_some_iff.mp hread
    exact h f a (Fields.held_of_ofValue? hv hf) ha
  unnamed h := nomatch h
  behind h := nomatch h

end ColumnFile.MessagePack
