import ColumnFile.Buffer
import ColumnFile.Machine

/-! # Buffers on a machine

The calls of a buffer that change its memory once more, with sizes that are words. A size may be
anything, also one that no memory is there for; then the call stops the program.

* `Machine.newBuffer` — an empty buffer.
* `Machine.resize`, `Machine.reserve` — changing the capacity.
* `Machine.append`, `Machine.appendZeros` — growing, placing and committing at once.
-/

namespace ColumnFile.Machine

/-- An empty buffer of a capacity. -/
def newBuffer (capacity : Nat) : Except Stop Buffer := do
  allocate capacity
  return Buffer.ofCapacity capacity

/-- The buffer with memory of another size. -/
def reallocate (b : Buffer) (capacity : Nat) : Except Stop Buffer := do
  allocate capacity
  return { b with mem := b.mem.resize capacity, owned := true }

/-- Changes the capacity; the committed bytes have to fit. -/
def resize (b : Buffer) (capacity : Nat) : Except Stop Buffer :=
  if capacity < b.used then .error (.fault .shrinkBelowCommitted) else reallocate b capacity

/-- Grows until `additional` more bytes fit, at least to twice the capacity. -/
def reserve (b : Buffer) (additional : Nat) : Except Stop Buffer :=
  if additional ≤ b.available then .ok b
  else do
    let least ← add b.used additional
    let twice ← mul b.capacity 2
    reallocate b (max (max least twice) Buffer.minCapacity)

/-- Puts bytes behind the committed ones, inside the memory, and commits them. -/
def lay (b : Buffer) (bs : Bytes) : Except Stop Buffer := do
  let stop ← add b.used bs.length
  within b.capacity b.used stop
  return { b.put b.used bs with used := stop }

/-- Adds bytes behind the committed ones, growing if they do not fit. -/
def append (b : Buffer) (bs : Bytes) : Except Stop Buffer := do
  let b ← reserve b bs.length
  lay b bs

/-- Adds zeros. -/
def appendZeros (b : Buffer) (n : Nat) : Except Stop Buffer := do
  let b ← reserve b n
  lay b (Bytes.zeros n)

end ColumnFile.Machine
