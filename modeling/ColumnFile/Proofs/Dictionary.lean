import Mathlib.Data.Finset.Card
import Mathlib.Data.List.Forall2
import ColumnFile.Dictionary
import ColumnFile.Proofs.Buffer
import ColumnFile.Proofs.Fault
import ColumnFile.Proofs.RunLength.Length

/-! # Dictionary streams read back

Every value has an entry, every entry is where the tables say in the heap, and the codes give the
values back, joined.

* **`Dictionary.mem_entriesOf`**, **`Dictionary.pairwise_entriesOf`** — the entries are the values,
  in order; `length_entriesOf` counts them.
* **`Dictionary.length_entriesOf_le`** — entries are bounded by the octets of the values, since all
  but the first are not empty.
* **`Heap.addAll_spec`** — each value is in the heap where adding it said.
* **`Dictionary.Fits`** — lists of values whose dictionary a machine can hold.
* **`Dictionary.expand_encode`** — the stream of a list reads back as its values, joined.
* **`Dictionary.values_roundtrip`** — the same behind whatever a buffer holds, with the entries and
  the heap. -/

namespace ColumnFile

namespace Bytes

/-- Byte strings that compare as equal are equal. -/
theorem eq_of_compareLex {a b : Bytes} (h : compareLex a b = .eq) : a = b := by
  induction a generalizing b with
  | nil =>
      cases b with
      | nil => rfl
      | cons y ys => cases h
  | cons x xs ih =>
      cases b with
      | nil => cases h
      | cons y ys =>
          rw [compareLex] at h
          split at h
          · cases h
          · split at h
            · cases h
            · rename_i hlt hgt
              have hxy : x = y := UInt8.le_antisymm (UInt8.not_lt.mp hgt) (UInt8.not_lt.mp hlt)
              rw [hxy, ih h]

/-- The order of byte strings is the lexicographic one. -/
theorem compareLex_eq_lt {a b : Bytes} : compareLex a b = .lt ↔ a < b := by
  induction a generalizing b with
  | nil => cases b <;> simp [compareLex]
  | cons x xs ih =>
      cases b with
      | nil => simp [compareLex]
      | cons y ys =>
          rw [compareLex, List.cons_lt_cons_iff]
          by_cases hlt : x < y
          · simp [hlt]
          · by_cases hgt : y < x
            · have hne : x ≠ y := by
                rintro rfl
                exact hlt hgt
              simp [hlt, hgt, hne]
            · have hxy : x = y := UInt8.le_antisymm (UInt8.not_lt.mp hgt) (UInt8.not_lt.mp hlt)
              subst hxy
              simp [hlt, ih]

/-- Octets compare as greater when they are behind in the order of lists. -/
theorem compareLex_eq_gt {a b : Bytes} : compareLex a b = .gt ↔ b < a := by
  induction a generalizing b with
  | nil => cases b <;> simp [compareLex]
  | cons x xs ih =>
      cases b with
      | nil => simp [compareLex]
      | cons y ys =>
          rw [compareLex, List.cons_lt_cons_iff]
          by_cases hlt : x < y
          · have hne : y ≠ x := by
              rintro rfl
              exact UInt8.lt_irrefl _ hlt
            simp [hlt, hne, UInt8.not_lt.mpr (UInt8.le_of_lt hlt)]
          · by_cases hgt : y < x
            · simp [hlt, hgt]
            · have hxy : x = y := UInt8.le_antisymm (UInt8.not_lt.mp hgt) (UInt8.not_lt.mp hlt)
              subst hxy
              simp [hlt, ih]

/-- **An occurrence that was found** is one. -/
theorem find?_spec {needle hay : Bytes} {pos : Nat} (h : find? needle hay = some pos) :
    needle <+: hay.drop pos := by
  induction hay generalizing pos with
  | nil =>
      rw [find?] at h
      split at h
      · rename_i hempty
        rw [List.isEmpty_iff.mp hempty]
        exact List.nil_prefix
      · cases h
  | cons b rest ih =>
      rw [find?] at h
      split at h
      · rename_i hprefix
        cases h
        exact List.isPrefixOf_iff_prefix.mp hprefix
      · obtain ⟨before, hbefore, rfl⟩ := Option.map_eq_some_iff.mp h
        rw [List.drop_succ_cons]
        exact ih hbefore

/-- A prefix of what lies behind a position is a slice there. -/
theorem slice?_of_prefix {bs value : Bytes} {start : Nat} (hstart : start ≤ bs.length)
    (h : value <+: bs.drop start) : bs.slice? start value.length = some value := by
  obtain ⟨rest, hrest⟩ := h
  have hlength := congrArg List.length hrest
  rw [List.length_append, List.length_drop] at hlength
  rw [slice?, if_pos (by omega), ← hrest, List.take_left' rfl]

/-- A slice stays where it is when octets are added. -/
theorem slice?_append {bs value : Bytes} {start len : Nat} (more : Bytes)
    (h : bs.slice? start len = some value) : (bs ++ more).slice? start len = some value := by
  unfold slice? at h ⊢
  split at h
  · rename_i hfits
    rw [if_pos (by rw [List.length_append]; omega), List.drop_append_of_le_length (by omega),
      List.take_append_of_le_length (by rw [List.length_drop]; omega)]
    exact h
  · cases h

end Bytes

namespace Heap

/-! ## (1) The heap -/

/-- **Adding a value** finds it or puts it at the end. -/
theorem add_cases (h : Heap) (value : Bytes) :
    (∃ pos, h.add value = (pos, h) ∧ pos ≤ h.data.length ∧ value <+: h.data.drop pos) ∨
      h.add value = (h.data.length, { data := h.data ++ value }) := by
  unfold add
  by_cases hempty : value.isEmpty = true
  · rw [if_pos hempty, List.isEmpty_iff.mp hempty]
    exact Or.inl ⟨0, rfl, Nat.zero_le _, List.nil_prefix⟩
  · rw [if_neg hempty]
    dsimp only
    generalize h.data.length - window = start
    cases hfind : Bytes.find? value (h.data.drop start) with
    | none => exact Or.inr rfl
    | some pos =>
        have hprefix := Bytes.find?_spec hfind
        rw [List.drop_drop] at hprefix
        have hpos : 0 < value.length := by
          rw [List.length_pos_iff]
          intro hnil
          rw [hnil] at hempty
          exact hempty rfl
        have hlength := hprefix.length_le
        rw [List.length_drop] at hlength
        exact Or.inl ⟨start + pos, rfl, by omega, hprefix⟩

/-- **What adding a value does**: octets are added at the end, if at all, no more than those of the
value, and the value is where it says. -/
theorem add_spec (h : Heap) (value : Bytes) :
    (∃ more, (h.add value).2.data = h.data ++ more ∧ more.length ≤ value.length) ∧
      (h.add value).2.data.slice? (h.add value).1 value.length = some value := by
  rcases add_cases h value with ⟨pos, hadd, hpos, hprefix⟩ | hadd
  · rw [hadd]
    exact ⟨⟨[], (List.append_nil _).symm, Nat.zero_le _⟩, Bytes.slice?_of_prefix hpos hprefix⟩
  · rw [hadd]
    refine ⟨⟨value, rfl, Nat.le_refl _⟩, Bytes.slice?_of_prefix ?_ ?_⟩
    · rw [List.length_append]
      exact Nat.le_add_right _ _
    · exact (List.drop_left' rfl).symm ▸ List.prefix_refl value

/-- **Each value is in the heap** where adding it said, and the heap has grown by no more than the
octets of the values. -/
theorem addAll_spec (values : List Bytes) (h : Heap) :
    (∃ more, (addAll values h).2.data = h.data ++ more ∧
        more.length ≤ (values.map List.length).sum) ∧
      List.Forall₂ (fun pos value => (addAll values h).2.data.slice? pos value.length = some value)
        (addAll values h).1 values := by
  induction values generalizing h with
  | nil => exact ⟨⟨[], (List.append_nil _).symm, Nat.le_refl 0⟩, List.Forall₂.nil⟩
  | cons v rest ih =>
      obtain ⟨⟨more, hgrown, hmore⟩, hplace⟩ := add_spec h v
      obtain ⟨⟨more', hgrown', hmore'⟩, hplaces⟩ := ih (h.add v).2
      have hall : addAll (v :: rest) h =
          ((h.add v).1 :: (addAll rest (h.add v).2).1, (addAll rest (h.add v).2).2) := rfl
      rw [hall]
      refine ⟨⟨more ++ more', ?_, ?_⟩, List.Forall₂.cons ?_ hplaces⟩
      · rw [hgrown', hgrown, List.append_assoc]
      · rw [List.length_append, List.map_cons, List.sum_cons]
        omega
      · dsimp only
        rw [hgrown']
        exact Bytes.slice?_append more' hplace

end Heap

namespace Dictionary

/-! ## (2) The entries -/

/-- Inserting a value adds that value and no other. -/
theorem mem_insertEntry {v x : Bytes} {entries : List Bytes} :
    x ∈ insertEntry v entries ↔ x = v ∨ x ∈ entries := by
  induction entries with
  | nil => rw [insertEntry, List.mem_singleton, List.mem_nil_iff, or_false]
  | cons e rest ih =>
      rw [insertEntry]
      split
      · rw [List.mem_cons]
      · rename_i heq
        rw [Bytes.eq_of_compareLex heq]
        constructor
        · exact Or.inr
        · rintro (rfl | hx)
          · exact List.mem_cons_self
          · exact hx
      · rw [List.mem_cons, ih, List.mem_cons]
        exact or_left_comm

/-- **The entries are the values.** -/
theorem mem_entriesOf {values : List Bytes} {x : Bytes} : x ∈ entriesOf values ↔ x ∈ values := by
  have hgrow : ∀ entries : List Bytes,
      x ∈ values.foldl (fun entries v => insertEntry v entries) entries ↔ x ∈ entries ∨
        x ∈ values := by
    induction values with
    | nil =>
        intro entries
        rw [List.foldl_nil, List.mem_nil_iff, or_false]
    | cons v rest ih =>
        intro entries
        rw [List.foldl_cons, ih, mem_insertEntry, List.mem_cons, or_comm (a := x = v), or_assoc]
  rw [entriesOf, hgrow, List.mem_nil_iff, false_or]

/-- **Inserting a value** keeps the order. -/
theorem pairwise_insertEntry {v : Bytes} {entries : List Bytes} (h : entries.Pairwise (· < ·)) :
    (insertEntry v entries).Pairwise (· < ·) := by
  induction entries with
  | nil => exact List.pairwise_singleton _ _
  | cons e rest ih =>
      obtain ⟨hfirst, hrest⟩ := List.pairwise_cons.mp h
      rw [insertEntry]
      split
      · rename_i hlt
        have hve : v < e := Bytes.compareLex_eq_lt.mp hlt
        refine List.pairwise_cons.mpr ⟨?_, h⟩
        intro x hx
        rcases List.mem_cons.mp hx with rfl | hx
        · exact hve
        · exact List.lt_trans hve (hfirst x hx)
      · exact h
      · rename_i hgt
        refine List.pairwise_cons.mpr ⟨?_, ih hrest⟩
        intro x hx
        rcases mem_insertEntry.mp hx with rfl | hx
        · exact Bytes.compareLex_eq_gt.mp hgt
        · exact hfirst x hx

/-- **The entries are in order**, so none of them is there twice. -/
theorem pairwise_entriesOf (values : List Bytes) : (entriesOf values).Pairwise (· < ·) := by
  have hgrow : ∀ entries : List Bytes, entries.Pairwise (· < ·) →
      (values.foldl (fun entries v => insertEntry v entries) entries).Pairwise (· < ·) := by
    induction values with
    | nil => exact fun entries h => h
    | cons v rest ih => exact fun entries h => ih _ (pairwise_insertEntry h)
  exact hgrow [] List.Pairwise.nil

/-- **There are as many entries** as values that differ. -/
theorem length_entriesOf (values : List Bytes) :
    (entriesOf values).length = values.toFinset.card := by
  have hnodup : (entriesOf values).Nodup := by
    refine (pairwise_entriesOf values).imp ?_
    rintro a b hlt rfl
    exact List.lt_irrefl a hlt
  have hsame : (entriesOf values).toFinset = values.toFinset := by
    ext x
    rw [List.mem_toFinset, List.mem_toFinset, mem_entriesOf]
  rw [← hsame, List.toFinset_card_of_nodup hnodup]

/-- **All entries but the first are not empty**, as the empty value comes before all others. -/
theorem tail_insertEntry {v : Bytes} {entries : List Bytes} (h : ∀ e ∈ entries.tail, e ≠ []) :
    ∀ e ∈ (insertEntry v entries).tail, e ≠ [] := by
  cases entries with
  | nil =>
      intro e he
      cases he
  | cons hd rest =>
      rw [List.tail_cons] at h
      rw [insertEntry]
      split
      · rename_i hlt
        rw [List.tail_cons]
        intro e he
        rcases List.mem_cons.mp he with rfl | he
        · rintro rfl
          cases v <;> cases hlt
        · exact h e he
      · exact h
      · rename_i hgt
        rw [List.tail_cons]
        intro e he
        rcases mem_insertEntry.mp he with rfl | he
        · rintro rfl
          cases hd <;> cases hgt
        · exact h e he

/-- All entries but the first have octets. -/
theorem tail_entriesOf (values : List Bytes) : ∀ e ∈ (entriesOf values).tail, e ≠ [] := by
  have hgrow : ∀ entries : List Bytes, (∀ e ∈ entries.tail, e ≠ []) →
      ∀ e ∈ (values.foldl (fun entries v => insertEntry v entries) entries).tail, e ≠ [] := by
    induction values with
    | nil => exact fun entries h => h
    | cons v rest ih => exact fun entries h => ih _ (tail_insertEntry h)
  exact hgrow [] (by simp)

/-- Inserting a value adds no more octets than it has. -/
theorem sum_insertEntry_le (v : Bytes) (entries : List Bytes) :
    ((insertEntry v entries).map List.length).sum ≤ v.length + (entries.map List.length).sum := by
  induction entries with
  | nil => exact Nat.le_refl _
  | cons e rest ih =>
      rw [insertEntry]
      split
      · refine Nat.le_of_eq ?_
        rw [List.map_cons, List.sum_cons]
      · exact Nat.le_add_left _ _
      · rw [List.map_cons, List.sum_cons, List.map_cons, List.sum_cons]
        omega

/-- Entries are no longer than the values together. -/
theorem sum_entriesOf_le (values : List Bytes) :
    ((entriesOf values).map List.length).sum ≤ (values.map List.length).sum := by
  have hgrow : ∀ entries : List Bytes,
      ((values.foldl (fun entries v => insertEntry v entries) entries).map List.length).sum ≤
        (entries.map List.length).sum + (values.map List.length).sum := by
    induction values with
    | nil => exact fun entries => Nat.le_refl _
    | cons v rest ih =>
        intro entries
        have hinsert := sum_insertEntry_le v entries
        have hrest := ih (insertEntry v entries)
        rw [List.foldl_cons, List.map_cons, List.sum_cons]
        omega
  have h := hgrow []
  rw [List.map_nil, List.sum_nil, Nat.zero_add] at h
  exact h

/-- Byte strings that are not empty are no more than their octets. -/
theorem length_le_sum {entries : List Bytes} (h : ∀ e ∈ entries, e ≠ []) :
    entries.length ≤ (entries.map List.length).sum := by
  induction entries with
  | nil => exact Nat.le_refl 0
  | cons e rest ih =>
      have hpos : 0 < e.length := List.length_pos_iff.mpr (h e List.mem_cons_self)
      have hrest := ih fun x hx => h x (List.mem_cons_of_mem e hx)
      rw [List.length_cons, List.map_cons, List.sum_cons]
      omega

/-- **Entries are bounded** by the octets of the values. -/
theorem length_entriesOf_le (values : List Bytes) :
    (entriesOf values).length ≤ (values.map List.length).sum + 1 := by
  have hsum := sum_entriesOf_le values
  have htail := length_le_sum (tail_entriesOf values)
  cases hentries : entriesOf values with
  | nil => exact Nat.zero_le _
  | cons e rest =>
      rw [hentries, List.tail_cons] at htail
      rw [hentries, List.map_cons, List.sum_cons] at hsum
      rw [List.length_cons]
      omega

/-! ## (3) The parts of a stream -/

/-- A string behind its length reads back, whatever follows it. -/
theorem readString_withLength {bs : Bytes} (short : Fault) (rest : Bytes) (h : bs.length < 2 ^ 64) :
    readString short (withLength bs ++ rest) = .ok (bs, rest) := by
  have hlength : (UInt64.ofNat bs.length).toNat = bs.length := UInt64.toNat_ofNat_of_lt' h
  rw [withLength, List.append_assoc, readString, Varint.read_encode, ok_bind]
  dsimp only
  rw [hlength, if_neg (by rw [List.length_append]; omega), List.take_left' rfl, List.drop_left' rfl]
  rfl

/-- A table reads back, whatever follows it. -/
theorem readTable_withLength {numbers : List Nat} (rest : Bytes)
    (h : (encodeNumbers numbers).length < 2 ^ 64) :
    readTable (withLength (encodeNumbers numbers) ++ rest) =
      .ok (numbers.map Int64.ofNat, rest) := by
  have hread := Run.readAll_of_stream (RunEncoder.encodeAll_stream false (numbers.map Int64.ofNat))
  rw [readTable, readString_withLength _ rest h, ok_bind]
  dsimp only
  rw [encodeNumbers, hread]
  rfl

/-- The parts of the stream of a list. -/
def partsOf (values : List Bytes) : Parts where
  heap := (Heap.addAll (entriesOf values) {}).2.data
  offsets := (Heap.addAll (entriesOf values) {}).1.map Int64.ofNat
  lengths := ((entriesOf values).map List.length).map Int64.ofNat
  codes := encodeNumbers (values.map fun v => (entriesOf values).idxOf v)

/-- The heap of a list has no more octets than the values. -/
theorem length_heap_le (values : List Bytes) :
    (partsOf values).heap.length ≤ (values.map List.length).sum := by
  obtain ⟨⟨more, hgrown, hmore⟩, -⟩ := Heap.addAll_spec (entriesOf values) {}
  have hsum := sum_entriesOf_le values
  show (Heap.addAll (entriesOf values) {}).2.data.length ≤ _
  rw [hgrown, List.length_append, List.length_nil]
  omega

/-- As many places are given as there are entries. -/
theorem length_addAll (entries : List Bytes) (h : Heap) :
    (Heap.addAll entries h).1.length = entries.length :=
  (Heap.addAll_spec entries h).2.length_eq

/-- The stream of a list, part by part. -/
theorem encode_eq (values : List Bytes) :
    encode values = Varint.encode (UInt64.ofNat (entriesOf values).length) ++
      withLength (partsOf values).heap ++
      withLength (encodeNumbers (Heap.addAll (entriesOf values) {}).1) ++
      withLength (encodeNumbers ((entriesOf values).map List.length)) ++ (partsOf values).codes :=
    rfl

/-- **A dictionary that a machine can hold**: its entries can be counted in a word, its heap is no
longer than a byte string can be, and each table has a length. -/
structure Fits (values : List Bytes) : Prop where
  entries : (entriesOf values).length < 2 ^ 64
  heap : (partsOf values).heap.length < 2 ^ 63
  offsets : (encodeNumbers (Heap.addAll (entriesOf values) {}).1).length < 2 ^ 64
  lengths : (encodeNumbers ((entriesOf values).map List.length)).length < 2 ^ 64

/-- Values of less than four gigabytes have such a dictionary, however many of them there are. -/
theorem fits_of_sum_lt {values : List Bytes} (h : (values.map List.length).sum < 2 ^ 32) :
    Fits values := by
  have hentries := length_entriesOf_le values
  have hheap := length_heap_le values
  have htable : ∀ numbers : List Nat, numbers.length = (entriesOf values).length →
      (encodeNumbers numbers).length < 2 ^ 64 := by
    intro numbers hnumbers
    have hlength := RunEncoder.length_encodeAll_le false (numbers.map Int64.ofNat)
    rw [List.length_map] at hlength
    rw [encodeNumbers]
    omega
  exact ⟨by omega, by omega, htable _ (length_addAll _ _), htable _ (List.length_map _)⟩

/-- **Values whose stream is a byte string** have such a dictionary, if they can be counted. -/
theorem fits_of_length {values : List Bytes} (hcount : values.length < 2 ^ 64)
    (hstream : (encode values).length < 2 ^ 63) : Fits values := by
  have hentries : (entriesOf values).length ≤ values.length := by
    rw [length_entriesOf]
    exact List.toFinset_card_le values
  have hparts := congrArg List.length (encode_eq values)
  simp only [List.length_append, withLength] at hparts
  constructor <;> omega

/-- **The stream of a list is taken apart** into its parts. -/
theorem parse_encode {values : List Bytes} (h : Fits values) :
    parse (encode values) = .ok (partsOf values) := by
  have hheap := h.heap
  have hcount : (UInt64.ofNat (entriesOf values).length).toNat = (entriesOf values).length :=
    UInt64.toNat_ofNat_of_lt' h.entries
  have hoffsets := length_addAll (entriesOf values) {}
  rw [encode_eq, List.append_assoc, List.append_assoc, List.append_assoc, parse, Varint.read_encode,
    ok_bind]
  dsimp only
  rw [readString_withLength _ _ (by omega), ok_bind]
  dsimp only
  rw [readTable_withLength _ h.offsets, ok_bind]
  dsimp only
  rw [readTable_withLength _ h.lengths, ok_bind]
  dsimp only
  rw [hcount, List.length_map, List.length_map, List.length_map, hoffsets, if_neg (by simp)]
  rfl

/-! ## (4) Values -/

/-- **The code of a value** stands for it. -/
theorem value_idxOf {values : List Bytes} {v : Bytes} (h : Fits values) (hv : v ∈ values) :
    (partsOf values).value (Int64.ofNat ((entriesOf values).idxOf v)) = .ok v := by
  have hentries := h.entries
  have hheap := h.heap
  obtain ⟨-, hplaces⟩ := Heap.addAll_spec (entriesOf values) {}
  generalize hindex : (entriesOf values).idxOf v = index
  have hmem : v ∈ entriesOf values := mem_entriesOf.mpr hv
  have hlt : index < (entriesOf values).length := hindex ▸ List.idxOf_lt_length_of_mem hmem
  have hentry : (entriesOf values)[index] = v := by
    subst hindex
    exact List.getElem_idxOf hlt
  have hlt' : index < (Heap.addAll (entriesOf values) {}).1.length := by
    rw [length_addAll]
    exact hlt
  have hslice := hplaces.get hlt' hlt
  generalize hpos : (Heap.addAll (entriesOf values) {}).1[index] = pos
  rw [List.get_eq_getElem, List.get_eq_getElem, hpos, hentry] at hslice
  have hfound : (partsOf values).heap.slice? pos v.length = some v := hslice
  -- position and length are below the length of the heap, so their signs are right
  have hfits : pos + v.length ≤ (partsOf values).heap.length := by
    by_contra hover
    rw [Bytes.slice?, if_neg hover] at hfound
    cases hfound
  have hcode : (Int64.ofNat index).toUInt64.toNat = index := by
    rw [Int64.toUInt64_ofNat', UInt64.toNat_ofNat_of_lt' (by show _ < 2 ^ 64; omega)]
  have hposInt : (Int64.ofNat pos).toInt = pos := Int64.toInt_ofNat_of_lt (by omega)
  have hlenInt : (Int64.ofNat v.length).toInt = v.length := Int64.toInt_ofNat_of_lt (by omega)
  have hoffset : (partsOf values).offsets[index]? = some (Int64.ofNat pos) := by
    show ((Heap.addAll (entriesOf values) {}).1.map Int64.ofNat)[index]? = _
    rw [List.getElem?_map, List.getElem?_eq_getElem hlt', hpos]
    rfl
  have hlength : (partsOf values).lengths[index]? = some (Int64.ofNat v.length) := by
    show (((entriesOf values).map List.length).map Int64.ofNat)[index]? = _
    rw [List.getElem?_map, List.getElem?_map, List.getElem?_eq_getElem hlt, hentry]
    rfl
  have hsign : ¬ (Int64.ofNat pos < 0 ∨ Int64.ofNat v.length < 0) := by
    rw [Int64.lt_iff_toInt_lt, Int64.lt_iff_toInt_lt, hposInt, hlenInt]
    show ¬ ((pos : Int) < 0 ∨ (v.length : Int) < 0)
    omega
  rw [Parts.value, hcode, hoffset, hlength]
  dsimp only
  rw [if_neg hsign, hposInt, hlenInt, Int.toNat_natCast, Int.toNat_natCast, hfound]

/-- Codes that stand for values are joined to them. -/
theorem join_of_values {p : Parts} {codes : List Int64} {f : Int64 → Bytes}
    (h : ∀ code ∈ codes, p.value code = .ok (f code)) :
    p.join codes = (.ok (), codes.flatMap f) := by
  induction codes with
  | nil => rfl
  | cons code rest ih =>
      rw [Parts.join, h code List.mem_cons_self, ih fun c hc => h c (List.mem_cons_of_mem code hc),
        List.flatMap_cons]

/-- **A stream of codes** that stand for values is joined to them, run by run. -/
theorem joinRuns_of_stream {p : Parts} {bs : Bytes} {codes : List Int64} {f : Int64 → Bytes}
    (hstream : Run.Stream false bs codes) (h : ∀ code ∈ codes, p.value code = .ok (f code)) :
    p.joinRuns bs = (.ok (), codes.flatMap f) := by
  induction hstream with
  | nil =>
      rw [Parts.joinRuns, if_pos rfl]
      rfl
  | @cons run stored more bs hrun _ ih =>
      have hread := Run.read_encode bs hrun
      have hlength := Run.read_length hread
      have hne : run.encode false ++ bs ≠ [] := by
        intro hnil
        rw [hnil] at hlength
        exact absurd hlength (Nat.not_lt_zero _)
      have hjoin := join_of_values fun code hc => h code (List.mem_append_left more hc)
      have hmore := ih fun code hc => h code (List.mem_append_right stored hc)
      rw [Parts.joinRuns, if_neg hne]
      split
      · rename_i e he
        rw [hread] at he
        cases he
      · rename_i stored' rest' hok
        rw [hread] at hok
        cases hok
        rw [hjoin]
        dsimp only
        rw [hmore, List.flatMap_append]

/-- **The stream of a list reads back** as its values, joined. -/
theorem expand_encode {values : List Bytes} (h : Fits values) :
    expand (encode values) = (.ok (), values.flatten) := by
  have hentries := h.entries
  -- a code is the place of its value among the entries, and is small enough to be a word
  have hvalue : ∀ v ∈ values,
      (entriesOf values).getD (Int64.ofNat ((entriesOf values).idxOf v)).toUInt64.toNat [] = v := by
    intro v hv
    have hmem : v ∈ entriesOf values := mem_entriesOf.mpr hv
    have hlt := List.idxOf_lt_length_of_mem hmem
    rw [Int64.toUInt64_ofNat', UInt64.toNat_ofNat_of_lt' (by show _ < 2 ^ 64; omega),
      List.getD_eq_getElem?_getD, List.getElem?_eq_getElem hlt, List.getElem_idxOf hlt,
      Option.getD_some]
  have hstream := RunEncoder.encodeAll_stream false
    ((values.map fun v => (entriesOf values).idxOf v).map Int64.ofNat)
  have hjoin := joinRuns_of_stream (p := partsOf values)
    (f := fun code => (entriesOf values).getD code.toUInt64.toNat []) hstream (by
      intro code hcode
      obtain ⟨i, hi, rfl⟩ := List.mem_map.mp hcode
      obtain ⟨v, hv, rfl⟩ := List.mem_map.mp hi
      rw [hvalue v hv]
      exact value_idxOf h hv)
  -- the codes of the values, each turned back, are the values
  have hflatten : ((values.map fun v => (entriesOf values).idxOf v).map Int64.ofNat).flatMap
      (fun code => (entriesOf values).getD code.toUInt64.toNat []) = values.flatten := by
    rw [List.map_map, List.flatMap_map]
    show values.flatMap (fun v => _) = values.flatten
    rw [← List.flatMap_id]
    exact List.flatMap_congr hvalue
  rw [expand, parse_encode h]
  dsimp only
  rw [← hflatten]
  exact hjoin

/-! ## (5) Into a buffer -/

/-- **Values were added** to a buffer: they are committed behind the octets that were, and are not
consumed. -/
structure Adds (out : Buffer) (values : Bytes) (out' : Buffer) : Prop where
  ordered : out'.Ordered
  committed : out'.committed = out.committed ++ values
  treated : out'.treated = out.treated

/-- Nothing adds nothing. -/
theorem Adds.refl {out : Buffer} (h : out.Ordered) : Adds out [] out :=
  ⟨h, (List.append_nil _).symm, rfl⟩

/-- What is appended is added. -/
theorem adds_append {out : Buffer} (h : out.Ordered) (value : Bytes) :
    Adds out value (out.append value) :=
  ⟨(h.append value).1, h.committed_append value, (h.append value).2.2⟩

/-- What is added behind something is added to it. -/
theorem Adds.trans {out out₁ out₂ : Buffer} {values more : Bytes} (h : Adds out values out₁)
    (h' : Adds out₁ more out₂) : Adds out (values ++ more) out₂ :=
  ⟨h'.ordered, by rw [h'.committed, h.committed, List.append_assoc], h'.treated.trans h.treated⟩

/-- Values that are added one by one are added joined, as far as the codes stand for some. -/
theorem joinInto_spec (p : Parts) (codes : List Int64) {out : Buffer} (h : out.Ordered) :
    (p.joinInto codes out).1 = (p.join codes).1 ∧
    Adds out (p.join codes).2 (p.joinInto codes out).2 := by
  induction codes generalizing out with
  | nil => exact ⟨rfl, Adds.refl h⟩
  | cons code rest ih =>
      rw [Parts.joinInto, Parts.join]
      cases p.value code with
      | error e => exact ⟨rfl, Adds.refl h⟩
      | ok value =>
          have hvalue := adds_append h value
          obtain ⟨hresult, hrest⟩ := ih hvalue.ordered
          exact ⟨hresult, hvalue.trans hrest⟩

/-- **Runs that are joined** into a buffer are added to it as they are joined on their own. -/
theorem joinRunsInto_spec (p : Parts) (codes : Bytes) {out : Buffer} (h : out.Ordered) :
    (p.joinRunsInto codes out).1 = (p.joinRuns codes).1 ∧
      Adds out (p.joinRuns codes).2 (p.joinRunsInto codes out).2 := by
  induction hlength : codes.length using Nat.strongRecOn generalizing codes out with
  | ind length ih =>
      rw [Parts.joinRunsInto, Parts.joinRuns]
      by_cases hnil : codes = []
      · rw [if_pos hnil, if_pos hnil]
        exact ⟨rfl, Adds.refl h⟩
      · rw [if_neg hnil, if_neg hnil]
        cases hrun : Run.read false codes with
        | error e => exact ⟨rfl, Adds.refl h⟩
        | ok p' =>
            obtain ⟨run, rest⟩ := p'
            obtain ⟨hresult, hvalues⟩ := joinInto_spec p run h
            dsimp only
            generalize hinto : p.joinInto run out = into at hresult hvalues
            generalize hjoin : p.join run = joined at hresult hvalues
            obtain ⟨outcome, out₁⟩ := into
            obtain ⟨outcome', values⟩ := joined
            cases hresult
            cases outcome with
            | error e => exact ⟨rfl, hvalues⟩
            | ok _ =>
                obtain ⟨hmore, hrest⟩ :=
                  ih rest.length (hlength ▸ Run.read_length hrun) rest hvalues.ordered rfl
                exact ⟨hmore, hvalues.trans hrest⟩

/-- **Expanding into a buffer** adds what expanding gives, the values before a failure as well. -/
theorem expandInto_spec (bs : Bytes) {out : Buffer} (h : out.Ordered) :
    (expandInto bs out).1 = (expand bs).1 ∧ Adds out (expand bs).2 (expandInto bs out).2 := by
  rw [expandInto, expand]
  cases parse bs with
  | error e => exact ⟨rfl, Adds.refl h⟩
  | ok p => exact joinRunsInto_spec p p.codes h

/-- **A dictionary stream reads back.** The stream of any values — empty ones, repeated ones and
ones that are longer than what is searched of the heap — is expanded without a failure into any
buffer, whatever it holds, and adds exactly the values, joined. The stream has an entry for each
value that differs from the others, in order. And wherever values are added to a heap, each of them
stands in the heap that comes of it at the offset that was returned for it. -/
theorem values_roundtrip (values : List Bytes) (hcount : values.length < 2 ^ 64)
    (hstream : (encode values).length < 2 ^ 63) (out : Buffer) (hout : out.Ordered)
    (added : List Bytes) (h : Heap) :
    (expandInto (encode values) out).1 = .ok () ∧
      Adds out values.flatten (expandInto (encode values) out).2 ∧
      (entriesOf values).length = values.toFinset.card ∧
      (entriesOf values).Pairwise (· < ·) ∧
      List.Forall₂ (fun pos value => (Heap.addAll added h).2.data.slice? pos value.length =
        some value)
        (Heap.addAll added h).1 added := by
  obtain ⟨hresult, hadds⟩ := expandInto_spec (encode values) hout
  rw [expand_encode (fits_of_length hcount hstream)] at hresult hadds
  exact ⟨hresult, hadds, length_entriesOf values, pairwise_entriesOf values,
    (Heap.addAll_spec added h).2⟩

/-- Values of which one is empty, one comes twice and one is part of another, read into a borrowed
buffer with two committed octets, one of them consumed, and two more behind them; and a heap in
which a value is found at the seam of two others. -/
theorem values_roundtrip_borrowed :
    (encode [[7, 8, 9], [], [8], [7, 8, 9]]).length < 2 ^ 63 ∧
      (⟨[1, 2, 3, 4], 2, 1, false⟩ : Buffer).Ordered ∧
      (expandInto (encode [[7, 8, 9], [], [8], [7, 8, 9]]) ⟨[1, 2, 3, 4], 2, 1, false⟩).1 = .ok () ∧
      (expandInto (encode [[7, 8, 9], [], [8], [7, 8, 9]])
        ⟨[1, 2, 3, 4], 2, 1, false⟩).2.committed =
        [1, 2, 7, 8, 9, 8, 7, 8, 9] ∧
      (entriesOf [[7, 8, 9], [], [8], [7, 8, 9]]).length = 3 ∧
      List.Forall₂ (fun pos value =>
          (Heap.addAll [[7, 8], [9], [8, 9]] {}).2.data.slice? pos value.length = some value)
        [0, 2, 1] [[7, 8], [9], [8, 9]] := by
  have hstream : (encode [[7, 8, 9], [], [8], [7, 8, 9]]).length < 2 ^ 63 := by decide +kernel
  have hout : (⟨[1, 2, 3, 4], 2, 1, false⟩ : Buffer).Ordered := by decide
  obtain ⟨hresult, hadds, hentries, -, hplaces⟩ :=
    values_roundtrip [[7, 8, 9], [], [8], [7, 8, 9]] (by decide) hstream _ hout
      [[7, 8], [9], [8, 9]] {}
  exact ⟨hstream, hout, hresult, hadds.committed, hentries.trans (by decide), hplaces⟩

end Dictionary

end ColumnFile
