import ColumnFile.Bytes

/-! # Annotations

Names for ranges of octets. A name is qualified by the context in which it is given: the parts that
were pushed and not popped.

* `ByteRange` — positions from one up to another.
* `Annotations` — named ranges and the current context.
* `Annotations.push`, `Annotations.pop`, `Annotations.annotate` — building them.
-/

namespace ColumnFile

/-- A **range** of octets, from `start` up to but not including `stop`. -/
structure ByteRange where
  /-- The first position. -/
  start : Nat
  /-- The position behind the last one. -/
  stop : Nat
deriving DecidableEq, Repr

/-- How many octets a range covers. -/
def ByteRange.length (r : ByteRange) : Nat := r.stop - r.start

/-- **Named ranges**, and the context for the next name. -/
structure Annotations where
  /-- The parts of the context, the outermost one first. -/
  context : List String := []
  /-- The ranges and their full names, in the order in which they were given. -/
  ranges : List (ByteRange × String) := []
deriving DecidableEq, Repr

namespace Annotations

/-- One more part of the context. -/
def push (a : Annotations) (part : String) : Annotations :=
  { a with context := a.context ++ [part] }

/-- Leaves the innermost part of the context. -/
def pop (a : Annotations) : Annotations := { a with context := a.context.dropLast }

@[simp] theorem pop_push (a : Annotations) (part : String) : (a.push part).pop = a := by
  simp [push, pop]

/-- The full name of a name in the current context. -/
def qualify (a : Annotations) (name : String) : String :=
  String.intercalate "." (a.context ++ [name])

/-- Names a range. -/
def annotate (a : Annotations) (start stop : Nat) (name : String) : Annotations :=
  { a with ranges := a.ranges ++ [(⟨start, stop⟩, a.qualify name)] }

end Annotations

end ColumnFile
