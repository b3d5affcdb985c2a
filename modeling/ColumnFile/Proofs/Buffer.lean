import ColumnFile.Buffer

/-! # Buffers grow behind what is committed

Octets that are added to a buffer come behind the committed ones, wherever its cursors stand and
whatever was placed without being committed.

* **`Buffer.Ordered.reserve`** — making room keeps what is committed; so does `Buffer.Ordered.put`.
* **`Buffer.Ordered.append`**, **`Buffer.Ordered.committed_append`** — adding octets. -/

namespace ColumnFile

namespace Buffer

variable {b : Buffer} {n : Nat} {bs : Bytes}

/-- What is committed does not change when the memory is only made longer. -/
theorem take_resize {mem : Bytes} {used capacity : Nat} (hused : used ≤ mem.length)
    (hgrown : mem.length ≤ capacity) : (mem.resize capacity).take used = mem.take used := by
  rw [Bytes.resize, List.take_of_length_le hgrown, List.take_append_of_le_length hused]

/-- **Making room** leaves the cursors and the committed octets as they are. -/
theorem Ordered.reserve (h : b.Ordered) (n : Nat) :
    (b.reserve n).used = b.used ∧ (b.reserve n).treated = b.treated ∧
      (b.reserve n).committed = b.committed ∧ b.used + n ≤ (b.reserve n).capacity := by
  obtain ⟨-, hused⟩ := h
  unfold Buffer.reserve
  split
  · rename_i hroom
    refine ⟨rfl, rfl, rfl, ?_⟩
    unfold available at hroom
    omega
  · rename_i hfull
    refine ⟨rfl, rfl, take_resize hused ?_, ?_⟩
    · show b.capacity ≤ _
      unfold available at hfull
      omega
    · show b.used + n ≤ (Bytes.resize _ _).length
      rw [Bytes.length_resize]
      omega

/-- Octets that are put behind others, inside the memory. -/
theorem overwrite_inside {mem : Bytes} {used : Nat} (h : used + bs.length ≤ mem.length) :
    (mem.overwrite used bs).take (used + bs.length) = mem.take used ++ bs ∧
      (mem.overwrite used bs).length = mem.length := by
  have hfront : (mem.take used ++ bs).length = used + bs.length := by
    rw [List.length_append, List.length_take]
    omega
  have hnone : Bytes.zeros (used - mem.length) = [] := by
    rw [Nat.sub_eq_zero_of_le (by omega)]
    rfl
  rw [Bytes.overwrite, hnone, List.append_nil]
  refine ⟨List.take_left' hfront, ?_⟩
  rw [List.length_append, hfront, List.length_drop]
  omega

/-- Octets that are put inside the memory do not change its size. -/
theorem capacity_put (h : b.used + bs.length ≤ b.capacity) :
    (b.put b.used bs).capacity = b.capacity :=
  (overwrite_inside h).2

/-- **Octets that are put behind the committed ones**, inside the memory, leave those and the
cursors alone. -/
theorem Ordered.put (h : b.Ordered) (hfits : b.used + bs.length ≤ b.capacity) :
    (b.put b.used bs).Ordered ∧ (b.put b.used bs).committed = b.committed := by
  obtain ⟨hfront, hlength⟩ := overwrite_inside hfits
  refine ⟨⟨h.1, ?_⟩, ?_⟩
  · show b.used ≤ (b.mem.overwrite b.used bs).length
    rw [hlength]
    exact h.2
  · show (b.mem.overwrite b.used bs).take b.used = b.mem.take b.used
    have htake := congrArg (List.take b.used) hfront
    rw [List.take_take, Nat.min_eq_left (Nat.le_add_right _ _),
      List.take_left' (List.length_take_of_le h.2)] at htake
    exact htake

/-- **Adding octets** commits them behind the others. -/
theorem Ordered.committed_append (h : b.Ordered) (bs : Bytes) :
    (b.append bs).committed = b.committed ++ bs := by
  obtain ⟨hused, -, hcommitted, hroom⟩ := h.reserve bs.length
  have hput := (overwrite_inside (hused ▸ hroom)).1
  rw [hused] at hput
  show ((b.reserve bs.length).mem.overwrite b.used bs).take
    ((b.reserve bs.length).used + bs.length) = _
  rw [hused, hput, ← hcommitted, committed, hused]

/-- **Adding octets** moves one cursor only. -/
theorem Ordered.append (h : b.Ordered) (bs : Bytes) :
    (b.append bs).Ordered ∧ (b.append bs).used = b.used + bs.length ∧
      (b.append bs).treated = b.treated := by
  obtain ⟨hused, htreated, -, hroom⟩ := h.reserve bs.length
  have hlength := (overwrite_inside (hused ▸ hroom)).2
  rw [hused] at hlength
  have hcapacity : (b.append bs).capacity = (b.reserve bs.length).capacity := hlength
  have hmoved : (b.append bs).used = b.used + bs.length := by
    show (b.reserve bs.length).used + bs.length = _
    rw [hused]
  have hkept : (b.append bs).treated = b.treated := htreated
  refine ⟨⟨?_, ?_⟩, hmoved, hkept⟩
  · rw [hkept, hmoved]
    exact Nat.le_add_right_of_le h.1
  · rw [hmoved, hcapacity]
    exact hroom

end Buffer

end ColumnFile
