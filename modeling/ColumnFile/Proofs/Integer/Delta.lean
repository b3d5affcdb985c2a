import ColumnFile.Integer.Delta
import ColumnFile.Proofs.Fault
import ColumnFile.Proofs.Integer.Difference
import ColumnFile.Proofs.Integer.Extremum
import ColumnFile.Proofs.Integer.Packing
import ColumnFile.Proofs.Integer.Varint

/-! # Direct delta streams read back

* **`Delta.readBlock_encodeBlock`**, **`Delta.readBlocks_encodeBlocks`** — distances read back,
  whatever follows them.
* **`Delta.readBlock_encodeBlocks`** — each block ends where the next one begins.
* **`Delta.length_le_encode`** — a stream is never so short that a reader refuses its count.
* **`Delta.decode_encode`** — the stream of a list reads back as the list.
* **`Delta.stream_roundtrip`** — all of this of one stream, with the distances that wrap around. -/

namespace ColumnFile

namespace Delta

/-! ## (1) Blocks -/

/-- **A block reads back**, whatever follows it. -/
theorem readBlock_encodeBlock (block : List Int64) (rest : Bytes) :
    readBlock block.length (encodeBlock block ++ rest) = .ok (block, rest) := by
  unfold encodeBlock
  dsimp only
  -- the least difference, what the others exceed it by, and the width that is enough for that
  generalize block.tail.foldl min (block.headD 0) = least
  generalize hexcess : (block.map fun d => (d - least).toUInt64.toNat) = excess
  generalize hmost : excess.foldl max 0 = most
  generalize hwidth : (if most = 0 then 0 else Width.required most) = width
  have hlength : block.length = excess.length := by rw [← hexcess, List.length_map]
  have h64 : ∀ e ∈ excess, e < 2 ^ 64 := by
    intro e he
    rw [← hexcess] at he
    obtain ⟨d, -, rfl⟩ := List.mem_map.mp he
    exact UInt64.toNat_lt _
  have hmost64 : most < 2 ^ 64 := hmost ▸ foldl_max_lt (by decide) h64
  have hwidth64 : width ≤ 64 := by
    rw [← hwidth]
    split
    · exact Nat.zero_le 64
    · exact (Width.bounds_of_mem_fixedLadder (Width.required_mem most)).2
  -- every excess is below the power of that width
  have hfit : ∀ e ∈ excess, e < 2 ^ width := by
    intro e he
    have hle : e ≤ most := hmost ▸ (le_foldl_max 0 excess).2 e he
    rw [← hwidth]
    split
    · rename_i hzero
      rw [hzero] at hle
      exact Nat.lt_succ_of_le hle
    · exact Nat.lt_of_le_of_lt hle (Width.lt_two_pow_required hmost64)
  have hbyte : (UInt8.ofNat width).toNat = width := by
    rw [UInt8.toNat_ofNat', Nat.mod_eq_of_lt (by omega)]
  -- the least difference added to each excess gives the differences
  have hvalues : (excess.map fun e => least + Int64.ofNat e) = block := by
    rw [← hexcess, List.map_map]
    exact List.map_id'' (fun d => base_add_excess least d) block
  rw [readBlock, List.append_assoc, Varint.readSigned_encodeSigned, ok_bind]
  dsimp only
  rw [List.cons_append]
  dsimp only
  rw [hbyte, hlength, Packing.read_pack excess rest hwidth64 hfit, ok_bind]
  dsimp only
  rw [hvalues]
  rfl

/-- **A block ends where the next one begins**: behind the first distances a reader finds the blocks
of the others. -/
theorem readBlock_encodeBlocks {distances : List Int64} (hne : distances ≠ []) (rest : Bytes) :
    readBlock (min distances.length blockLength) (encodeBlocks distances ++ rest) =
      .ok (distances.take blockLength, encodeBlocks (distances.drop blockLength) ++ rest) := by
  have hblock : min distances.length blockLength = (distances.take blockLength).length := by
    rw [List.length_take, Nat.min_comm]
  rw [encodeBlocks, if_neg (by rw [List.isEmpty_iff]; exact hne), List.append_assoc, hblock]
  exact readBlock_encodeBlock (distances.take blockLength) _

/-- **Blocks read back**, whatever follows them. -/
theorem readBlocks_encodeBlocks (distances : List Int64) (rest : Bytes) :
    readBlocks distances.length (encodeBlocks distances ++ rest) = .ok (distances, rest) := by
  induction hn : distances.length using Nat.strongRecOn generalizing distances with
  | ind n ih =>
      subst hn
      by_cases hempty : distances = []
      · rw [hempty, encodeBlocks, readBlocks]
        rfl
      · have hpos : 0 < distances.length := List.length_pos_iff.mpr hempty
        have hrest : (distances.drop blockLength).length =
            distances.length - min distances.length blockLength := by
          rw [List.length_drop]
          omega
        have h128 : 0 < blockLength := by decide
        have hmore := ih (distances.drop blockLength).length (by omega)
          (distances.drop blockLength) rfl
        rw [readBlocks, if_neg (by omega), readBlock_encodeBlocks hempty, ok_bind]
        dsimp only
        rw [← hrest, hmore, ok_bind]
        dsimp only
        rw [List.take_append_drop]
        rfl

/-- **A block takes at least a byte**, so that the count of distances is bounded by the bytes. -/
theorem length_le_blocks (distances : List Int64) :
    distances.length ≤ blockLength * (encodeBlocks distances).length := by
  induction hn : distances.length using Nat.strongRecOn generalizing distances with
  | ind n ih =>
      subst hn
      by_cases hempty : distances = []
      · rw [hempty]
        exact Nat.zero_le _
      · have hpos : 0 < distances.length := List.length_pos_iff.mpr hempty
        have h128 : 0 < blockLength := by decide
        have hdrop : (distances.drop blockLength).length = distances.length - blockLength :=
          List.length_drop
        have hmore := ih (distances.drop blockLength).length (by omega)
          (distances.drop blockLength) rfl
        have hblock : 0 < (encodeBlock (distances.take blockLength)).length := by
          unfold encodeBlock
          dsimp only
          rw [List.length_append, List.length_cons]
          omega
        rw [encodeBlocks, if_neg (by rw [List.isEmpty_iff]; exact hempty), List.length_append,
          Nat.mul_add]
        have hone : blockLength ≤ blockLength * (encodeBlock (distances.take blockLength)).length :=
          Nat.le_mul_of_pos_right _ hblock
        omega

/-! ## (2) Streams -/

/-- **A stream is long enough for its count**, so that no reader refuses it: the first integer takes
a byte, and every block of the distances takes one. -/
theorem length_le_encode (values : List Int64) :
    values.length ≤ (encode values).length * (8 * blockLength) := by
  cases values with
  | nil => exact Nat.zero_le _
  | cons first rest =>
      have hfirst : 0 < (Varint.encodeSigned first).length := Varint.length_digits_pos _
      have hbound := length_le_blocks (differences (first :: rest))
      have h128 : blockLength = 128 := rfl
      rw [length_differences, h128] at hbound
      rw [encode, List.length_append, List.length_append, List.length_cons, h128]
      omega

/-- **The stream of a list reads back** as the list, when the count fits 64 bits. -/
theorem decode_encode (values : List Int64) (h : values.length < 2 ^ 64) :
    decode (encode values) = .ok values := by
  have hcount : (UInt64.ofNat values.length).toNat = values.length := UInt64.toNat_ofNat_of_lt' h
  have hguard := length_le_encode values
  cases values with
  | nil =>
      rw [encode, decode, Varint.read_encode, ok_bind]
      rfl
  | cons first rest =>
      have hblocks := readBlocks_encodeBlocks (differences (first :: rest)) []
      rw [length_differences first rest, List.append_nil] at hblocks
      rw [encode] at hguard
      rw [encode, decode, Varint.read_encode, ok_bind]
      dsimp only at hguard ⊢
      rw [hcount, if_neg (by rw [List.length_cons]; omega), if_neg (Nat.not_lt.mpr hguard),
        Varint.readSigned_encodeSigned, ok_bind]
      dsimp only
      rw [List.length_cons, Nat.add_sub_cancel, hblocks, ok_bind]
      dsimp only
      rw [sums_differences]
      rfl

/-- **The round trip of a stream.** A list of any length that 64 bits can count reads back, and its
count is never refused. This rests on three facts about distances: what lies above the least
distance of a block gives the distance back also where both wrap around, a block reads back whatever
its distances are and whatever follows it, and in a row of blocks a reader ends one where the next
one begins. -/
theorem stream_roundtrip (values : List Int64) (h : values.length < 2 ^ 64) :
    decode (encode values) = .ok values ∧
      values.length ≤ (encode values).length * (8 * blockLength) ∧
      (∀ least d : Int64, least + Int64.ofNat (d - least).toUInt64.toNat = d) ∧
      (∀ block rest, readBlock block.length (encodeBlock block ++ rest) = .ok (block, rest)) ∧
      ∀ distances rest, distances ≠ [] →
        readBlock (min distances.length blockLength) (encodeBlocks distances ++ rest) =
          .ok (distances.take blockLength, encodeBlocks (distances.drop blockLength) ++ rest) := by
  refine ⟨decode_encode values h, length_le_encode values, base_add_excess,
    readBlock_encodeBlock, ?_⟩
  intro distances rest hne
  exact readBlock_encodeBlocks hne rest

/-- Distances of the full range of 64 bits wrap around, and so does what lies above the least of
them. -/
theorem stream_roundtrip_wrapping :
    [Int64.maxValue, Int64.minValue, 0, Int64.maxValue, -1].length < 2 ^ 64 ∧
      decode (encode [Int64.maxValue, Int64.minValue, 0, Int64.maxValue, -1]) =
        .ok [Int64.maxValue, Int64.minValue, 0, Int64.maxValue, -1] ∧
      readBlock 2 (encodeBlocks [Int64.maxValue, Int64.minValue] ++ [7]) =
        .ok ([Int64.maxValue, Int64.minValue], [7]) :=
  have hfits : [Int64.maxValue, Int64.minValue, 0, Int64.maxValue, -1].length < 2 ^ 64 := by decide
  have hstream := stream_roundtrip _ hfits
  ⟨hfits, hstream.1, by
    have hlast := hstream.2.2.2.2 [Int64.maxValue, Int64.minValue] [7] (by decide)
    have hnone : encodeBlocks (List.drop blockLength [Int64.maxValue, Int64.minValue]) = [] := by
      rw [encodeBlocks]
      rfl
    rw [hnone] at hlast
    exact hlast⟩

end Delta

end ColumnFile
