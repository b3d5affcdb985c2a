import ColumnFile.Proofs.Machine
import ColumnFile.Statistics.Machine
import Mathlib.Data.Nat.Bitwise

/-! # What statistics can be asked

A filter has as many bits as its words, and a digest is looked up modulo that number. So no bit is
looked up behind the words, whatever the words and however many bits a digest has; and if there are
no words, the first bit of a digest cannot be looked up at all.

* **`Machine.containsFrom_eq`** — the bits of a digest in a filter with words.
* **`BloomFilter.Hollow`** — filters that have no words, but bits for each digest;
  **`Machine.contains_eq`**.
* **`ColumnStatistics.Asks`** — when the filter of a column is asked;
  **`Machine.mayContain_eq`**. -/

namespace ColumnFile

/-- **A filter is hollow** when each digest has bits in it, but it has no words to hold them. -/
def BloomFilter.Hollow (f : BloomFilter) : Prop := f.words.size = 0 ∧ f.hashes ≠ 0

/-- It can be decided whether a filter is hollow. -/
instance (f : BloomFilter) : Decidable f.Hollow := inferInstanceAs (Decidable (_ ∧ _))

/-- **The filter is asked** about a datum that neither the counts nor the range decide. -/
def ColumnStatistics.Asks (s : ColumnStatistics) (d : Datum) : Prop :=
  d.isNull = false ∧ s.nonNull ≠ 0 ∧ s.range.all (·.mayContain d) = true

/-- It can be decided whether a filter is asked. -/
instance (s : ColumnStatistics) (d : Datum) : Decidable (s.Asks d) :=
  inferInstanceAs (Decidable (_ ∧ _ ∧ _))

/-- Every datum but null is digested. -/
theorem Datum.exists_digestKey {d : Datum} (h : d.isNull = false) :
    ∃ key, d.digestKey? = some key := by
  cases d with
  | null => cases h
  | _ => exact ⟨_, rfl⟩

namespace Machine

variable [BloomScheme] {f : BloomFilter} {h : UInt64} {s : ColumnStatistics} {d : Datum}

/-! ## (1) Filters -/

omit [BloomScheme] in
/-- A bit of a word is looked up by a mask. -/
theorem and_shiftLeft_eq_zero {w k : Nat} : w &&& 1 <<< k = 0 ↔ w.testBit k = false := by
  rw [Nat.one_shiftLeft, Nat.and_two_pow, Nat.mul_eq_zero, Bool.toNat_eq_zero]
  exact or_iff_left (Nat.ne_of_gt (Nat.two_pow_pos k))

omit [BloomScheme] in
/-- **The bits of a digest** are looked up in a filter with words. By induction on how many are
left. -/
theorem containsFrom_eq (hsome : f.words.size ≠ 0) (turns i : Nat) :
    containsFrom f (64 * f.words.size) h turns i =
      .ok (((List.range' i turns).map fun i =>
        (h + UInt64.ofNat i * (BloomFilter.swapHalves h ||| 1)).toNat %
          (64 * f.words.size)).all f.getBit) := by
  induction turns generalizing i with
  | zero => rfl
  | succ turns ih =>
      rw [containsFrom, rem_eq (by omega), ok_bind]
      generalize hp : (h + UInt64.ofNat i * (BloomFilter.swapHalves h ||| 1)).toNat %
        (64 * f.words.size) = p
      -- a remainder by the number of bits is the place of one, so its word is there
      have hlt : p < 64 * f.words.size := hp ▸ Nat.mod_lt _ (by omega)
      have hword : p / 64 < f.words.size := by omega
      have hplace : p % 64 < 64 := Nat.mod_lt p (by decide)
      have hbit : f.getBit p = f.words[p / 64].toNat.testBit (p % 64) := by
        rw [BloomFilter.getBit, Array.getElem?_eq_getElem hword]
      rw [element_eq hword, ok_bind, shiftLeft_eq (k := 1) (by decide) (by omega) hplace, ok_bind,
        List.range'_succ, List.map_cons, List.all_cons, hp, hbit]
      cases hset : f.words[p / 64].toNat.testBit (p % 64) with
      | true =>
          have hmask : ¬ f.words[p / 64].toNat &&& 1 <<< (p % 64) = 0 := by
            rw [and_shiftLeft_eq_zero, hset]
            decide
          rw [if_neg hmask, Bool.true_and]
          exact ih (i + 1)
      | false =>
          rw [if_pos (and_shiftLeft_eq_zero.mpr hset), Bool.false_and]

omit [BloomScheme] in
/-- **A digest is looked up** in any filter that a file can hold, unless that is hollow. -/
theorem contains_eq (hsize : f.words.size < 2 ^ 32) :
    contains f h = if f.Hollow then .error (.trap .divisor) else .ok (f.contains h) := by
  rw [contains, mul_eq (by omega), ok_bind]
  by_cases hsome : f.words.size = 0
  · cases hhashes : f.hashes with
    | zero =>
        have hsolid : ¬ f.Hollow := fun hhollow => hhollow.2 hhashes
        rw [if_neg hsolid, containsFrom, BloomFilter.contains, BloomFilter.probes, hhashes]
        rfl
    | succ turns =>
        -- the first bit is looked up modulo no bits at all
        have hhollow : f.Hollow := ⟨hsome, by omega⟩
        rw [if_pos hhollow, hsome, containsFrom]
        rfl
  · have hsolid : ¬ f.Hollow := fun hhollow => hsome hhollow.1
    rw [if_neg hsolid, Nat.mul_comm, containsFrom_eq hsome, BloomFilter.contains,
      BloomFilter.probes, List.range_eq_range']

/-! ## (2) Columns -/

/-- A datum about which the filter is not asked. -/
theorem mayContain_of_not_asks (h : ¬ s.Asks d) : mayContain s d = .ok (s.mayContain d) := by
  rw [mayContain, ColumnStatistics.mayContain]
  cases hnull : d.isNull with
  | true => rfl
  | false =>
      by_cases hcount : s.nonNull = 0
      · rw [if_pos hcount, if_pos hcount]
        rfl
      · have hrange : ¬ s.range.all (·.mayContain d) = true := fun hrange =>
          h ⟨hnull, hcount, hrange⟩
        rw [if_neg hcount, if_neg hcount, if_neg hrange, Bool.eq_false_iff.mpr hrange,
          Bool.false_and]
        rfl

/-- A datum about which the filter is asked, if there is one. -/
theorem mayContain_of_asks (h : s.Asks d) :
    mayContain s d = s.bloom.elim (.ok true) (mightContain · d) ∧
      s.mayContain d = s.bloom.all (·.mightContain d) := by
  obtain ⟨hnull, hcount, hrange⟩ := h
  rw [mayContain, ColumnStatistics.mayContain, hnull, if_neg Bool.false_ne_true,
    if_neg Bool.false_ne_true, if_neg hcount, if_neg hcount, if_pos hrange, hrange, Bool.true_and]
  cases s.bloom with
  | none => exact ⟨rfl, rfl⟩
  | some f => exact ⟨rfl, rfl⟩

/-- **What the statistics of a column answer** is what they answer apart from a machine, unless a
hollow filter is asked: then the machine stops, as there is no bit to look up. -/
theorem mayContain_eq (hsize : ∀ f, s.bloom = some f → f.words.size < 2 ^ 32) (d : Datum) :
    mayContain s d =
      if s.Asks d ∧ ∃ f, s.bloom = some f ∧ f.Hollow then .error (.trap .divisor)
      else .ok (s.mayContain d) := by
  by_cases hasks : s.Asks d
  · obtain ⟨hmachine, hplain⟩ := mayContain_of_asks hasks
    rw [hmachine, hplain]
    cases hbloom : s.bloom with
    | none =>
        have hnone : ¬ (s.Asks d ∧ ∃ f : BloomFilter, none = some f ∧ f.Hollow) := by
          rintro ⟨-, f, hf, -⟩
          cases hf
        rw [if_neg hnone]
        rfl
    | some f =>
        obtain ⟨key, hkey⟩ := Datum.exists_digestKey hasks.1
        have hasked : (s.Asks d ∧ ∃ g, some f = some g ∧ g.Hollow) ↔ f.Hollow := by
          constructor
          · rintro ⟨-, g, hg, hhollow⟩
            cases hg
            exact hhollow
          · exact fun hhollow => ⟨hasks, f, rfl, hhollow⟩
        rw [Option.elim_some, Option.all_some, mightContain, BloomFilter.mightContain, hkey]
        dsimp only
        rw [contains_eq (hsize f hbloom)]
        simp only [hasked]
  · have hnot : ¬ (s.Asks d ∧ ∃ f, s.bloom = some f ∧ f.Hollow) := fun hboth => hasks hboth.1
    rw [mayContain_of_not_asks hasks, if_neg hnot]

end Machine

end ColumnFile
