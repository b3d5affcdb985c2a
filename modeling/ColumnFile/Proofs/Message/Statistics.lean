import ColumnFile.Message.Statistics
import ColumnFile.Proofs.MessagePack.Shape

/-! # Statistics read back from messages

* **`ValueRange.fits`**, **`BloomFilter.fits`**, **`ColumnStatistics.fits`** — statistics whose
  counts and byte strings are within bounds. -/

namespace ColumnFile

open MessagePack (Fields Shape Value)

/-! ## (1) Ranges -/

namespace ValueRange

/-- **A range** within the bounds of a message. -/
def Sized : ValueRange → Prop
  | strings min max => min.length < 2 ^ 32 ∧ max.length < 2 ^ 32
  | _ => True

/-- It can be decided whether the ends of a range have a size. -/
instance : (r : ValueRange) → Decidable r.Sized
  | ints _ _ => isTrue trivial
  | floats _ _ => isTrue trivial
  | strings min max => inferInstanceAs (Decidable (min.length < 2 ^ 32 ∧ max.length < 2 ^ 32))

/-- **A range under the name of its kind** reads back, if its ends do. -/
theorem tagged_fits {α : Type} {s : Shape α} {kind : String} {build : α → α → ValueRange}
    {min max : α} {depth : Nat} {r : ValueRange} (hmin : s.Fits depth min) (hmax : s.Fits depth max)
    (hkind : (Bytes.ofString kind).length < 2 ^ 32) (hwrite : shape.write r = tagged kind s min max)
    (hread : ∀ levels body, shape.read levels (.map [(.text (Bytes.ofString kind), body)]) =
      readEnds s build levels body) (hbuild : build min max = r) : shape.Fits (depth + 2) r := by
  have hnames : endNames.Nodup := by decide
  have hsize : ∀ n ∈ endNames, (Bytes.ofString n).length < 2 ^ 32 := by decide
  constructor
  · rw [hwrite]
    refine .map (by simp) ?_ ?_
    · simp only [List.map_cons, List.map_nil, List.mem_singleton, forall_eq]
      exact .text hkind
    · simp only [List.map_cons, List.map_nil, List.mem_singleton, forall_eq]
      refine .map (by simp [endNames]) ?_ ?_
      · intro e he
        obtain ⟨⟨name, v⟩, hmem, rfl⟩ := List.mem_map.mp he
        exact .text (hsize name (List.of_mem_zip hmem).1)
      · simp [endNames, hmin.sized, hmax.sized]
  · intro levels hlevels
    obtain ⟨levels, rfl⟩ := Nat.exists_eq_add_of_le' (Nat.le_trans (Nat.le_add_left 1 _) hlevels)
    rw [hwrite]
    show shape.read (levels + 1) (.map [(.text (Bytes.ofString kind), _)]) = some r
    rw [hread, readEnds, Shape.ofValue?_ofFields levels hnames rfl]
    simp [Fields.get, endNames, List.lookup_cons, hmin.reads levels (by omega),
      hmax.reads levels (by omega), hbuild]

/-- **A range** reads back. -/
theorem fits {r : ValueRange} (h : r.Sized) : shape.Fits 3 r := by
  cases r with
  | ints min max =>
      exact (tagged_fits (Shape.int64_fits min) (Shape.int64_fits max) (by decide) rfl
        (fun _ _ => rfl) rfl).mono (by decide)
  | floats min max =>
      exact (tagged_fits (Shape.double_fits min) (Shape.double_fits max) (by decide) rfl
        (fun _ _ => rfl) rfl).mono (by decide)
  | strings min max =>
      obtain ⟨hmin, hmax⟩ := h
      exact tagged_fits (Shape.list_fits hmin fun n _ => Shape.octet_fits n)
        (Shape.list_fits hmax fun n _ => Shape.octet_fits n) (by decide) rfl (fun _ _ => rfl) rfl

end ValueRange

/-! ## (2) Filters and columns -/

/-- **A filter** within the bounds of a message. -/
structure BloomFilter.Sized (b : BloomFilter) : Prop where
  words : b.words.size < 2 ^ 32
  hashes : b.hashes < 2 ^ 32

/-- It can be decided whether a filter has a size. -/
instance (b : BloomFilter) : Decidable b.Sized :=
  decidable_of_iff (b.words.size < 2 ^ 32 ∧ b.hashes < 2 ^ 32)
    ⟨fun h => ⟨h.1, h.2⟩, fun h => ⟨h.words, h.hashes⟩⟩

/-- **A filter** reads back. -/
theorem BloomFilter.fits {b : BloomFilter} (h : b.Sized) : BloomFilter.shape.Fits 2 b := by
  have hwords := Shape.list_fits (l := b.words.toList) (by simpa using h.words)
    fun n _ => Shape.word64_fits n
  have hhashes := (Shape.nat_fits (by decide) h.hashes).mono (Nat.zero_le 1)
  refine Shape.record_fits (by decide) (by decide) (by decide) rfl ?_ ?_
  · simp [hwords.sized, hhashes.sized]
  · intro levels hlevels
    simp [Fields.get, List.lookup_cons, hwords.reads levels hlevels, hhashes.reads levels hlevels]

/-- **The statistics of a column** within the bounds of a message. -/
structure ColumnStatistics.Sized (s : ColumnStatistics) : Prop where
  rows : s.rows < 2 ^ 64
  nonNull : s.nonNull < 2 ^ 64
  range : ∀ r, s.range = some r → r.Sized
  bloom : ∀ b, s.bloom = some b → b.Sized

/-- It can be decided whether statistics have a size. -/
instance (s : ColumnStatistics) : Decidable s.Sized :=
  decidable_of_iff
    (s.rows < 2 ^ 64 ∧ s.nonNull < 2 ^ 64 ∧ (∀ r ∈ s.range, r.Sized) ∧ ∀ b ∈ s.bloom, b.Sized)
    ⟨fun h => ⟨h.1, h.2.1, h.2.2.1, h.2.2.2⟩, fun h => ⟨h.rows, h.nonNull, h.range, h.bloom⟩⟩

/-- **The statistics of a column** read back. -/
theorem ColumnStatistics.fits {s : ColumnStatistics} (h : s.Sized) :
    ColumnStatistics.shape.Fits 4 s := by
  have hrows := (Shape.nat_fits (by decide) h.rows).mono (Nat.zero_le 3)
  have hnonNull := (Shape.nat_fits (by decide) h.nonNull).mono (Nat.zero_le 3)
  have hhasNull := (Shape.bool_fits s.hasNull).mono (Nat.zero_le 3)
  have hallNull := (Shape.bool_fits s.allNull).mono (Nat.zero_le 3)
  have hrange : (Shape.option ValueRange.shape).Fits 3 s.range := by
    refine Shape.option_fits (fun r hr => ValueRange.fits (h.range r hr)) ?_
    intro r hnil
    cases r <;> cases hnil
  have hbloom : (Shape.option BloomFilter.shape).Fits 3 s.bloom := by
    refine Shape.option_fits (fun b hb => (BloomFilter.fits (h.bloom b hb)).mono (by decide)) ?_
    intro b hnil
    cases hnil
  refine Shape.record_fits (by decide) (by decide) (by decide) rfl ?_ ?_
  · simp [hrows.sized, hnonNull.sized, hhasNull.sized, hallNull.sized, hrange.sized, hbloom.sized]
  · intro levels hlevels
    simp [Fields.get, List.lookup_cons, hrows.reads levels hlevels, hnonNull.reads levels hlevels,
      hhasNull.reads levels hlevels, hallNull.reads levels hlevels, hrange.reads levels hlevels,
      hbloom.reads levels hlevels]

end ColumnFile
