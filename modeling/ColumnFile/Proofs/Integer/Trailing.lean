import ColumnFile.Proofs.Integer.Cursor
import ColumnFile.Proofs.Integer.Delta

/-! # Bytes behind a delta stream

Readers of integers take what they need off the front of a byte string, so they read the same when
more bytes follow. A reader of a whole stream then sees that bytes are left over, and refuses them;
the stream of no integers ends at its count, and what is behind that is never looked at.

* **`Local`** — readers that do not look behind what they take.
* **`Varint.local_read`**, **`Packing.local_read`**, **`Delta.local_readBlocks`** — the readers of
  the parts.
* **`Delta.of_decode`** — what a stream that was read consists of.
* **`Delta.decode_append`** — a stream that was read, with more bytes behind it. -/

namespace ColumnFile

/-- **A reader is local** when it reads the same, and leaves over so many bytes more, whatever
follows. -/
def Local {α : Type} (read : Bytes → Except Fault (α × Bytes)) : Prop :=
  ∀ {bs rest : Bytes} {a : α}, read bs = .ok (a, rest) →
    ∀ more, read (bs ++ more) = .ok (a, rest ++ more)

/-! ## (1) Integers and packed runs -/

namespace Varint

/-- Digits are read without a look at what is behind them. -/
theorem local_readDigits (limit : Nat) : Local (readDigits limit) := by
  intro bs rest n h more
  obtain ⟨taken, rfl, hlimit, htaken, rfl⟩ := of_readDigits h
  rw [List.append_assoc, readDigits_of_delimited _ htaken hlimit]

/-- A number is read without a look at what is behind it. -/
theorem local_read : Local read := by
  intro bs rest u h more
  unfold read at h ⊢
  obtain ⟨⟨n, rest'⟩, hdigits, h⟩ := bind_eq_ok h
  cases h
  rw [local_readDigits maxLength hdigits]
  rfl

/-- So is one with a sign. -/
theorem local_readSigned : Local readSigned := by
  intro bs rest v h more
  unfold readSigned at h ⊢
  obtain ⟨⟨u, rest'⟩, hread, h⟩ := bind_eq_ok h
  cases h
  rw [local_read hread]
  rfl

end Varint

namespace Packing

/-- The numbers of a run are those whose bits come first, and that does not change behind them. -/
theorem local_read (count width : Nat) : Local (read count width) := by
  intro bs rest values h more
  obtain ⟨hthere, rfl, hheld⟩ := of_read h
  have hlonger : size count width ≤ (bs ++ more).length := by
    rw [List.length_append]
    omega
  obtain ⟨others, hread, hothers⟩ := read_enough hlonger
  rw [hread, (hheld.append more).unique hothers, List.drop_append_of_le_length hthere]

end Packing

/-! ## (2) Blocks -/

namespace Delta

variable {bs rest more s t : Bytes} {values : List Int64}

/-- So are those of a block. -/
theorem local_readBlock (count : Nat) : Local (readBlock count) := by
  intro bs rest block h more
  unfold readBlock at h ⊢
  obtain ⟨⟨least, tail⟩, hleast, h⟩ := bind_eq_ok h
  rw [Varint.local_readSigned hleast, ok_bind]
  cases tail with
  | nil => cases h
  | cons width tail =>
      dsimp only [List.cons_append] at h ⊢
      obtain ⟨⟨excess, rest'⟩, hexcess, h⟩ := bind_eq_ok h
      cases h
      rw [Packing.local_read count _ hexcess]
      rfl

/-- By induction on the count of distances that are yet to be read, block by block. -/
theorem local_readBlocks (count : Nat) : Local (readBlocks count) := by
  intro bs rest distances h more
  induction count using Nat.strongRecOn generalizing bs distances with
  | ind count ih =>
      rw [readBlocks] at h ⊢
      by_cases hnone : count = 0
      · rw [if_pos hnone] at h ⊢
        cases h
        rfl
      · have h128 : 0 < blockLength := by decide
        rw [if_neg hnone] at h ⊢
        obtain ⟨⟨block, tail⟩, hblock, h⟩ := bind_eq_ok h
        obtain ⟨⟨blocks, rest'⟩, hblocks, h⟩ := bind_eq_ok h
        cases h
        rw [local_readBlock _ hblock, ok_bind]
        dsimp only
        rw [ih _ (by omega) hblocks]
        rfl

/-! ## (3) Streams -/

/-- **A stream of integers is whole**: its count is one that it can hold, and its blocks end where
it ends. -/
structure Whole (s : Bytes) (count : Nat) (rest : Bytes) (values : List Int64) : Prop where
  /-- The count is not refused. -/
  holds : count ≤ s.length * (8 * blockLength)
  /-- The first integer and the blocks of the distances to the others. -/
  blocks : ∃ first tail distances, Varint.readSigned rest = .ok (first, tail) ∧
    readBlocks (count - 1) tail = .ok (distances, []) ∧ values = first :: sums first distances

/-- **What a stream that was read consists of**: its count, and, unless that is zero, the
integers. -/
theorem of_decode (h : decode s = .ok values) :
    ∃ count rest, Varint.read s = .ok (count, rest) ∧
      (count.toNat = 0 ∧ values = [] ∨ count.toNat ≠ 0 ∧ Whole s count.toNat rest values) := by
  unfold decode at h
  obtain ⟨⟨count, rest⟩, hcount, h⟩ := bind_eq_ok h
  refine ⟨count, rest, hcount, ?_⟩
  dsimp only at h
  by_cases hnone : count.toNat = 0
  · rw [if_pos hnone] at h
    cases h
    exact .inl ⟨hnone, rfl⟩
  · rw [if_neg hnone] at h
    by_cases hguard : s.length * (8 * blockLength) < count.toNat
    · rw [if_pos hguard] at h
      cases h
    · rw [if_neg hguard] at h
      obtain ⟨⟨first, tail⟩, hfirst, h⟩ := bind_eq_ok h
      obtain ⟨⟨distances, left⟩, hblocks, h⟩ := bind_eq_ok h
      dsimp only at h
      cases left with
      | nil =>
          cases h
          exact .inr ⟨hnone, Nat.le_of_not_lt hguard, first, tail, distances, hfirst, hblocks, rfl⟩
      | cons b left => cases h

/-- **The stream of no integers** ends at its count: whatever follows is not looked at. -/
theorem decode_of_count_zero {count : UInt64} (hcount : Varint.read s = .ok (count, rest))
    (hnone : count.toNat = 0) (t : Bytes) : decode (s ++ t) = .ok [] := by
  unfold decode
  rw [Varint.local_read hcount t, ok_bind]
  dsimp only
  rw [if_pos hnone]
  rfl

/-- **Behind a whole stream nothing may follow.** A longer stream could hold the count all the more,
so the blocks are read, and what is left over is found. -/
theorem decode_of_whole {count : UInt64} (hcount : Varint.read s = .ok (count, rest))
    (hsome : count.toNat ≠ 0) (h : Whole s count.toNat rest values) (ht : t ≠ []) :
    decode (s ++ t) = .error .deltaTrailing := by
  obtain ⟨first, tail, distances, hfirst, hblocks, -⟩ := h.blocks
  -- what the guard compares the count with grows with the stream
  have hguard : ¬ (s ++ t).length * (8 * blockLength) < count.toNat := by
    have hholds := h.holds
    rw [List.length_append, Nat.add_mul]
    omega
  obtain ⟨b, left, rfl⟩ := List.exists_cons_of_ne_nil ht
  unfold decode
  rw [Varint.local_read hcount, ok_bind]
  dsimp only
  rw [if_neg hsome, if_neg hguard, Varint.local_readSigned hfirst, ok_bind]
  dsimp only
  rw [local_readBlocks _ hblocks, ok_bind]
  rfl

/-- **More bytes behind a stream that was read.** Behind a stream of integers they are refused,
always for the same reason. Behind the stream of no integers, which is the one whose count reads as
zero, they are not: it reads as before, so its reader takes byte strings of any length for the same
stream. -/
theorem decode_append (h : decode s = .ok values) (ht : t ≠ []) :
    (values ≠ [] → decode (s ++ t) = .error .deltaTrailing) ∧
      (values = [] → decode (s ++ t) = .ok []) ∧
      (values = [] ↔ ∃ rest, Varint.read s = .ok (0, rest)) := by
  obtain ⟨count, rest, hcount, hparts⟩ := of_decode h
  rcases hparts with ⟨hnone, rfl⟩ | ⟨hsome, hwhole⟩
  · have hzero : count = 0 := UInt64.toNat_inj.mp hnone
    refine ⟨fun hne => absurd rfl hne, fun _ => decode_of_count_zero hcount hnone t, ?_⟩
    exact iff_of_true rfl ⟨rest, hzero ▸ hcount⟩
  · obtain ⟨first, tail, distances, -, -, rfl⟩ := hwhole.blocks
    have hne : first :: sums first distances ≠ [] := List.cons_ne_nil _ _
    refine ⟨fun _ => decode_of_whole hcount hsome hwhole ht, fun hnil => absurd hnil hne, ?_⟩
    refine iff_of_false hne ?_
    rintro ⟨rest', hzero⟩
    rw [hcount] at hzero
    cases hzero
    exact hsome rfl

/-- One byte behind the stream of 5 and 9 is refused; behind the stream of no integers it is not
seen. -/
theorem decode_append_one_byte :
    decode [2, 10, 8, 0] = .ok [5, 9] ∧ decode ([2, 10, 8, 0] ++ [1]) = .error .deltaTrailing ∧
      decode [0] = .ok [] ∧ decode ([0] ++ [1]) = .ok [] := by
  have htwo : decode [2, 10, 8, 0] = .ok [5, 9] := by cbv
  have hnone : decode [0] = .ok [] := rfl
  have hone : ([1] : Bytes) ≠ [] := by decide
  exact ⟨htwo, (decode_append htwo hone).1 (by decide), hnone, (decode_append hnone hone).2.1 rfl⟩

end Delta

end ColumnFile
