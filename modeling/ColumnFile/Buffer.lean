import ColumnFile.Bytes
import ColumnFile.Fault

/-! # Buffers

A region of memory with two cursors. The bytes below `used` are committed; of these, the ones below
`treated` have been consumed by a later pass. Bytes can be placed behind the committed ones before
they are committed. A region can be borrowed; it is copied when it is first changed.

* `Buffer` — the region and its cursors.
* `Buffer.place`, `Buffer.commit` — bytes behind the committed ones, and committing them.
* `Buffer.consume` — moving the other cursor.
* `Buffer.resize`, `Buffer.reserve` — changing the capacity.
* `Buffer.append` — growing, placing and committing at once.
-/

namespace ColumnFile

namespace Bytes

/-- `n` zero octets. -/
def zeros (n : Nat) : Bytes := List.replicate n 0

/-- Puts octets at a position, over what is there and over the gap of zeros before it. -/
def overwrite (bs : Bytes) (pos : Nat) (new : Bytes) : Bytes :=
  bs.take pos ++ zeros (pos - bs.length) ++ new ++ bs.drop (pos + new.length)

/-- The first `n` octets, filled up with zeros. -/
def resize (bs : Bytes) (n : Nat) : Bytes := bs.take n ++ zeros (n - bs.length)

@[simp] theorem length_resize (bs : Bytes) (n : Nat) : (bs.resize n).length = n := by
  simp only [resize, zeros, List.length_append, List.length_take, List.length_replicate]
  omega

end Bytes

/-- A **buffer**: memory, the count of committed bytes and the count of consumed ones. -/
structure Buffer where
  /-- The memory; its length is the capacity. -/
  mem : Bytes
  /-- How many bytes are committed. -/
  used : Nat := 0
  /-- How many of the committed bytes are consumed. -/
  treated : Nat := 0
  /-- Whether the memory is the buffer's own and not borrowed. -/
  owned : Bool := true
deriving DecidableEq, Repr

namespace Buffer

/-- An empty buffer of a capacity. -/
def ofCapacity (capacity : Nat) : Buffer where
  mem := Bytes.zeros capacity

/-- A buffer that takes over bytes, all of them committed. -/
def ofBytes (bs : Bytes) : Buffer where
  mem := bs
  used := bs.length

/-- A view of borrowed bytes, all of them committed. -/
def borrow (bs : Bytes) : Buffer where
  mem := bs
  used := bs.length
  owned := false

/-! ## Reading -/

/-- How many bytes fit. -/
def capacity (b : Buffer) : Nat := b.mem.length

/-- How many bytes fit behind the committed ones. -/
def available (b : Buffer) : Nat := b.capacity - b.used

/-- How many committed bytes are not consumed. -/
def untreated (b : Buffer) : Nat := b.used - b.treated

/-- The committed bytes. -/
def committed (b : Buffer) : Bytes := b.mem.take b.used

/-- The committed bytes that are not consumed. -/
def pending (b : Buffer) : Bytes := b.committed.drop b.treated

/-- The memory behind the committed bytes. -/
def tail (b : Buffer) : Bytes := b.mem.drop b.used

/-- The cursors are in order and inside the memory. -/
def Ordered (b : Buffer) : Prop := b.treated ≤ b.used ∧ b.used ≤ b.capacity

/-- The order of a buffer can be decided. -/
instance (b : Buffer) : Decidable b.Ordered := inferInstanceAs (Decidable (_ ∧ _))

/-! ## Cursors -/

/-- Commits `n` placed bytes. -/
def commit (b : Buffer) (n : Nat) : Except Fault Buffer :=
  if b.available < n then .error .commitPastCapacity else .ok { b with used := b.used + n }

/-- Commits the whole memory. -/
def commitAll (b : Buffer) : Buffer := { b with used := b.capacity }

/-- Consumes `n` more committed bytes. -/
def consume (b : Buffer) (n : Nat) : Except Fault Buffer :=
  if b.untreated < n then .error .consumePastCommitted
  else .ok { b with treated := b.treated + n }

/-- Consumes all committed bytes. -/
def consumeAll (b : Buffer) : Buffer := { b with treated := b.used }

/-- Takes both cursors back to the start. -/
def clear (b : Buffer) : Buffer := { b with used := 0, treated := 0 }

/-! ## Memory -/

/-- Puts bytes into the memory at a place inside it, which makes it the buffer's own. -/
def put (b : Buffer) (pos : Nat) (bs : Bytes) : Buffer :=
  { b with mem := b.mem.overwrite pos bs, owned := true }

/-- Places bytes behind the committed ones without committing them. -/
def place (b : Buffer) (bs : Bytes) : Except Fault Buffer :=
  if b.available < bs.length then .error .writePastCapacity else .ok (b.put b.used bs)

/-- Changes the capacity; the committed bytes have to fit. -/
def resize (b : Buffer) (capacity : Nat) : Except Fault Buffer :=
  if capacity < b.used then .error .shrinkBelowCommitted
  else .ok { b with mem := b.mem.resize capacity, owned := true }

/-- The least capacity that a growing buffer gets. -/
def minCapacity : Nat := 64

/-- Grows until `additional` more bytes fit, at least to twice the capacity. -/
def reserve (b : Buffer) (additional : Nat) : Buffer :=
  if additional ≤ b.available then b
  else
    let capacity := max (max (b.used + additional) (b.capacity * 2)) minCapacity
    { b with mem := b.mem.resize capacity, owned := true }

/-- Adds bytes behind the committed ones, growing if they do not fit. -/
def append (b : Buffer) (bs : Bytes) : Buffer :=
  let b := (b.reserve bs.length).put b.used bs
  { b with used := b.used + bs.length }

/-- Adds zeros. -/
def appendZeros (b : Buffer) (n : Nat) : Buffer := b.append (Bytes.zeros n)

/-- Adds one byte. -/
def push (b : Buffer) (x : UInt8) : Buffer := b.append [x]

/-- Makes the memory the buffer's own. -/
def own (b : Buffer) : Buffer := { b with owned := true }

/-- Lets a pass change the memory behind the committed bytes. -/
def fillTail (b : Buffer) (f : Bytes → Bytes) : Buffer := b.put b.used (f b.tail)

end Buffer

end ColumnFile
