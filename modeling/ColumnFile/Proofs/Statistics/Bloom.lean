import ColumnFile.Proofs.Integer.Bits
import ColumnFile.Statistics.Collector

/-! # Filters contain what was added

Setting a bit clears none, and the bits of a digest depend on the size of the filter alone.

* **`BloomFilter.contains_insert_self`**, **`BloomFilter.contains_insert`** — a digest that was
  added, and those from before.
* **`ColumnCollector.contains_filterOf`** — the filter of some digests contains all of them.
* **`BloomScheme.narrow`** — a scheme whose filters are as small as they can be. -/

namespace ColumnFile

namespace BloomFilter

variable {f : BloomFilter} {h h' : UInt64} {p q : Nat}

/-! ## (1) Bits -/

@[simp] theorem size_words_setBit (f : BloomFilter) (p : Nat) :
    (f.setBit p).words.size = f.words.size := Array.size_modify

/-- A bit that was set. -/
theorem getBit_setBit_self (hp : p < 64 * f.words.size) : (f.setBit p).getBit p = true := by
  have hword : p / 64 < f.words.size := by omega
  have hplace : p % 64 < 64 := Nat.mod_lt _ (by decide)
  have hone : (1 <<< UInt64.ofNat (p % 64) : UInt64).toNat = 2 ^ (p % 64) := by
    have hlt : 2 ^ (p % 64) < 2 ^ 64 := Nat.pow_lt_pow_right (by decide) hplace
    rw [UInt64.toNat_shiftLeft, UInt64.toNat_ofNat_of_lt' (by show p % 64 < 2 ^ 64; omega),
      Nat.mod_eq_of_lt hplace, UInt64.toNat_one, Nat.one_shiftLeft, Nat.mod_eq_of_lt hlt]
  rw [getBit, setBit]
  dsimp only
  rw [Array.getElem?_modify, if_pos rfl, Array.getElem?_eq_getElem hword, Option.map_some]
  dsimp only
  rw [UInt64.toNat_or, Nat.testBit_or, hone, Nat.testBit_two_pow_self, Bool.or_true]

/-- Setting a bit clears none. -/
theorem getBit_setBit (p : Nat) (hq : f.getBit q = true) : (f.setBit p).getBit q = true := by
  rw [getBit] at hq ⊢
  rw [setBit]
  dsimp only
  rw [Array.getElem?_modify]
  by_cases hword : p / 64 = q / 64
  · rw [if_pos hword]
    cases hw : f.words[q / 64]? with
    | none =>
        rw [hw] at hq
        cases hq
    | some w =>
        rw [hw] at hq
        dsimp only [Option.map_some] at hq ⊢
        rw [UInt64.toNat_or, Nat.testBit_or, hq, Bool.true_or]
  · rw [if_neg hword]
    exact hq

/-- **Setting bits**: those are set, and so are those from before. -/
theorem getBit_setBits (ps : List Nat) (hps : ∀ p ∈ ps, p < 64 * f.words.size)
    (hq : f.getBit q = true ∨ q ∈ ps) : (ps.foldl setBit f).getBit q = true := by
  induction ps generalizing f with
  | nil =>
      rcases hq with hq | hq
      · exact hq
      · cases hq
  | cons p ps ih =>
      refine ih (f := f.setBit p) ?_ ?_
      · intro p' hp'
        rw [size_words_setBit]
        exact hps p' (List.mem_cons_of_mem p hp')
      · rcases hq with hq | hq
        · exact .inl (getBit_setBit p hq)
        · rcases List.mem_cons.mp hq with rfl | hq
          · exact .inl (getBit_setBit_self (hps q List.mem_cons_self))
          · exact .inr hq

/-- Setting bits keeps the size of a filter. -/
theorem size_setBits (ps : List Nat) (f : BloomFilter) :
    (ps.foldl setBit f).words.size = f.words.size ∧ (ps.foldl setBit f).hashes = f.hashes := by
  induction ps generalizing f with
  | nil => exact ⟨rfl, rfl⟩
  | cons p ps ih =>
      obtain ⟨hsize, hhashes⟩ := ih (f.setBit p)
      exact ⟨hsize.trans (size_words_setBit f p), hhashes⟩

/-! ## (2) Digests -/

/-- Adding a digest keeps the size of a filter. -/
theorem size_words_insert (f : BloomFilter) (h : UInt64) : (f.insert h).words.size = f.words.size :=
  (size_setBits (f.probes h) f).1

/-- The bits of a digest stay the same when others are added. -/
theorem probes_insert (f : BloomFilter) (h h' : UInt64) : (f.insert h').probes h = f.probes h := by
  obtain ⟨hsize, hhashes⟩ := size_setBits (f.probes h') f
  rw [probes, probes, insert, hsize, hhashes]

/-- The bits of a digest are bits of the filter. -/
theorem probes_lt (hsize : 0 < f.words.size) : ∀ p ∈ f.probes h, p < 64 * f.words.size := by
  intro p hp
  rw [probes] at hp
  obtain ⟨i, -, rfl⟩ := List.mem_map.mp hp
  exact Nat.mod_lt _ (by omega)

/-- **A digest that was added** is contained. -/
theorem contains_insert_self (hsize : 0 < f.words.size) : (f.insert h).contains h = true := by
  rw [contains, probes_insert, List.all_eq_true]
  intro p hp
  exact getBit_setBits _ (probes_lt hsize) (.inr hp)

/-- **A digest from before** stays contained. -/
theorem contains_insert (hsize : 0 < f.words.size) (hf : f.contains h = true) :
    (f.insert h').contains h = true := by
  rw [contains, List.all_eq_true] at hf
  rw [contains, probes_insert, List.all_eq_true]
  intro p hp
  exact getBit_setBits _ (probes_lt hsize) (.inl (hf p hp))

/-- **Digests that were added** one after the other are contained. -/
theorem contains_inserts (hs : List UInt64) (hsize : 0 < f.words.size)
    (hf : f.contains h = true ∨ h ∈ hs) : (hs.foldl insert f).contains h = true := by
  induction hs generalizing f with
  | nil =>
      rcases hf with hf | hf
      · exact hf
      · cases hf
  | cons first hs ih =>
      refine ih (f := f.insert first) (by rw [size_words_insert]; exact hsize) ?_
      rcases hf with hf | hf
      · exact .inl (contains_insert hsize hf)
      · rcases List.mem_cons.mp hf with rfl | hf
        · exact .inl (contains_insert_self hsize)
        · exact .inr hf

end BloomFilter

namespace ColumnCollector

/-- A digest that is put among others is there, and so are those. -/
theorem mem_addDigest {h h' : UInt64} {digests : List UInt64} (hmem : h' = h ∨ h' ∈ digests) :
    h' ∈ addDigest h digests := by
  induction digests with
  | nil => simpa [addDigest] using hmem
  | cons first rest ih =>
      rw [addDigest]
      by_cases hbefore : h < first
      · rw [if_pos hbefore]
        exact List.mem_cons.mpr hmem
      rw [if_neg hbefore]
      by_cases hsame : h = first
      · rw [if_pos hsame]
        rcases hmem with rfl | hmem
        · exact hsame ▸ List.mem_cons_self
        · exact hmem
      · rw [if_neg hsame]
        rcases hmem with hmem | hmem
        · exact List.mem_cons_of_mem _ (ih (.inl hmem))
        · rcases List.mem_cons.mp hmem with rfl | hmem
          · exact List.mem_cons_self
          · exact List.mem_cons_of_mem _ (ih (.inr hmem))

/-- **The filter of some digests** contains all of them. -/
theorem contains_filterOf [BloomScheme] {digests : List UInt64} {h : UInt64} (hmem : h ∈ digests) :
    (filterOf digests).contains h = true := by
  have hdistinct : h ∈ digests.foldr addDigest [] := by
    induction digests with
    | nil => cases hmem
    | cons first digests ih =>
        rcases List.mem_cons.mp hmem with rfl | hmem
        · exact mem_addDigest (.inl rfl)
        · exact mem_addDigest (.inr (ih hmem))
  exact BloomFilter.contains_inserts _ (BloomFilter.size_words_sized_pos _ _) (.inr hdistinct)

end ColumnCollector

/-- The **narrowest scheme**: filters of one word, and one bit for every digest. A digest is the
number that the octets write. -/
@[reducible]
def BloomScheme.narrow : BloomScheme where
  digest bs := UInt64.ofNat (Bytes.toNatLE bs)
  words _ _ := 1
  hashes _ _ := 1
  words_pos _ _ := by decide
  hashes_pos _ _ := by decide

end ColumnFile
