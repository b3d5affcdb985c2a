import ColumnFile.Proofs.RunLength.Encoder

/-! # The length of run-length streams

A run takes a bounded number of bytes and at most eight more for each value, so the stream of a list
is never longer than a multiple of it. Lengths that are themselves stored in 64 bits are bounded
this way.

* **`Run.length_encode_le`** — the bytes of a run against the values it stores.
* **`RunEncoder.length_encodeAll_le`** — the stream of a list against the list. -/

namespace ColumnFile

namespace Packing

/-- A packed number takes at most eight bytes. -/
theorem length_pack_le (values : List Nat) (width : Nat) :
    (pack values width).length ≤ 8 * values.length := by
  have hwidth := (Width.bounds_aligned width).2
  have hmul : values.length * Width.aligned width ≤ values.length * 64 :=
    Nat.mul_le_mul_left _ hwidth
  rw [length_pack, size]
  split
  · exact Nat.zero_le _
  · omega

end Packing

namespace Run

/-- The most bytes that a run takes besides those of its values. -/
def overhead : Nat := 300

/-- **The bytes of a run** are at most eight for each value and the overhead. -/
theorem length_encode_le {signed : Bool} {values : List Int64} {run : Run}
    (h : run.Stores signed values) : (run.encode signed).length ≤ 8 * values.length + overhead := by
  -- a number takes eight octets or, as a varint, ten; the rest is what headers take
  cases run with
  | shortRepeat value count =>
      have hwidth := Width.bounds_of_mem_fixedLadder
        (Width.required_mem (number signed value).toNat)
      rw [encode, List.length_cons, Bytes.length_ofNatBE, overhead]
      omega
  | direct width literals =>
      obtain ⟨-, -, -, -, rfl⟩ := h
      have hpack := Packing.length_pack_le (values.map fun v => (number signed v).toNat) width
      rw [List.length_map] at hpack
      rw [encode, List.length_append, overhead]
      show 2 + _ ≤ _
      omega
  | patchedBase base above =>
      obtain ⟨hfits, -, -, hbase, excess, happly, rfl⟩ := h
      have hlength := Patched.length_applyPatches happly
      have hcount : above.patches.length ≤ 31 := hfits.count_le
      have hsize := (baseBytes_spec hbase).2.1
      have hreduced := Packing.length_pack_le above.reduced above.width
      have hpatches :=
        Packing.length_pack_le above.patches (Width.fixed (above.gapWidth + above.patchWidth))
      rw [encode, encodeBase, List.length_append, List.length_append, List.length_append,
        List.length_append, Bytes.length_ofNatBE, List.length_map, overhead]
      show 2 + 2 + _ + _ + _ ≤ _
      omega
  | fixedDelta first step count =>
      have hfirst := Varint.length_encode_le (number signed first)
      have hstep := Varint.length_encode_le (Zigzag.encode step)
      rw [encode, Varint.encodeSigned, List.length_append, List.length_append, overhead]
      show 2 + _ + _ ≤ _
      omega
  | delta first step width magnitudes =>
      obtain ⟨-, -, -, -, rfl⟩ := h
      have hfirst := Varint.length_encode_le (number signed first)
      have hstep := Varint.length_encode_le (Zigzag.encode step)
      have hpack := Packing.length_pack_le magnitudes width
      rw [encode, Varint.encodeSigned, List.length_append, List.length_append, List.length_append,
        List.length_cons, List.length_cons, length_walk, overhead]
      show 2 + _ + _ + _ ≤ _
      omega

/-- Every run has a value, so its overhead is paid by its values. -/
theorem Stream.length_le {signed : Bool} {bs : Bytes} {values : List Int64}
    (h : Stream signed bs values) : bs.length ≤ (8 + overhead) * values.length := by
  induction h with
  | nil => exact Nat.le_refl 0
  | @cons run values rest bs hrun _ ih =>
      have hlength := length_encode_le hrun
      have hpos := hrun.length.1
      rw [List.length_append, List.length_append]
      rw [overhead] at hlength ih ⊢
      omega

end Run

namespace RunEncoder

/-- **The stream of a list** is at most a multiple of the list. -/
theorem length_encodeAll_le (signed : Bool) (values : List Int64) :
    (encodeAll signed values).length ≤ 308 * values.length :=
  (encodeAll_stream signed values).length_le

end RunEncoder

end ColumnFile
