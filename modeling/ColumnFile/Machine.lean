import ColumnFile.Bytes
import ColumnFile.Fault

/-! # Machines

Operations of a machine with words of 64 bits, which stops when an operand is out of range, or when
more memory is asked for than there can be. What is written with them tells whether that can happen.

* `Trap`, `Stop` — an operand out of range, and either that or a fault of what is read.
* `Machine.add`, `sub`, `mul`, `rem`, `shiftLeft`, `shiftRight`, `negate` — words.
* `Machine.entry`, `element`, `slice`, `within` — lists and arrays by place.
* `Machine.limit`, `Machine.allocate` — memory, as much as can be asked for at once.
-/

namespace ColumnFile

/-- An **operand out of range**. -/
inductive Trap
  /-- A shift by the width of a word or more. -/
  | shift
  /-- A place behind the end of a list. -/
  | index
  /-- A sum or a product past the width of a word. -/
  | overflow
  /-- A difference below zero. -/
  | underflow
  /-- A division by zero. -/
  | divisor
  /-- The negative of the least integer. -/
  | negation
  /-- A loop past the turns that it was given. -/
  | endless
  /-- More memory than can be asked for at once. -/
  | capacity
deriving DecidableEq, Repr

/-- Why a machine **stops**. -/
inductive Stop
  /-- The stream is at fault. -/
  | fault (cause : Fault)
  /-- An operand is out of range. -/
  | trap (trap : Trap)
deriving DecidableEq

namespace Machine

/-- What comes of a computation that does not stop the program: a fault is an answer. -/
def answer {α : Type} : Except Stop α → Except Trap (Except Fault α)
  | .ok a => .ok (.ok a)
  | .error (.fault cause) => .ok (.error cause)
  | .error (.trap trap) => .error trap

/-- A sum of words. -/
def add (a b : Nat) : Except Stop Nat :=
  if a + b < UInt64.size then .ok (a + b) else .error (.trap .overflow)

/-- A difference of words. -/
def sub (a b : Nat) : Except Stop Nat := if b ≤ a then .ok (a - b) else .error (.trap .underflow)

/-- A product of words. -/
def mul (a b : Nat) : Except Stop Nat :=
  if a * b < UInt64.size then .ok (a * b) else .error (.trap .overflow)

/-- What a division of words leaves. -/
def rem (a b : Nat) : Except Stop Nat := if b = 0 then .error (.trap .divisor) else .ok (a % b)

/-- A word shifted to the left; what leaves the word is dropped. -/
def shiftLeft (a n : Nat) : Except Stop Nat :=
  if n < 64 then .ok (a <<< n % UInt64.size) else .error (.trap .shift)

/-- A word shifted to the right. -/
def shiftRight (a n : Nat) : Except Stop Nat :=
  if n < 64 then .ok (a >>> n) else .error (.trap .shift)

/-- The negative of an integer. -/
def negate (v : Int64) : Except Stop Int64 :=
  if v = Int64.minValue then .error (.trap .negation) else .ok (-v)

/-- The entry of a list at a place. -/
def entry {α : Type} (xs : List α) (i : Nat) : Except Stop α :=
  match xs[i]? with
  | none => .error (.trap .index)
  | some x => .ok x

/-- The element of an array at a place. -/
def element {α : Type} (xs : Array α) (i : Nat) : Except Stop α :=
  match xs[i]? with
  | none => .error (.trap .index)
  | some x => .ok x

/-- The entries of a list from `start` up to but not including `stop`. -/
def slice {α : Type} (xs : List α) (start stop : Nat) : Except Stop (List α) :=
  if start ≤ stop ∧ stop ≤ xs.length then .ok ((xs.drop start).take (stop - start))
  else .error (.trap .index)

/-- Refuses two places of `size` octets that nothing lies between. -/
def within (size start stop : Nat) : Except Stop Unit :=
  if start ≤ stop ∧ stop ≤ size then .ok () else .error (.trap .index)

/-- The most octets that can be asked for at once: a place in them is a signed word. -/
def limit : Nat := UInt64.size / 2 - 1

/-- Asks for memory. Up to the limit it is taken to be there. -/
def allocate (octets : Nat) : Except Stop Unit :=
  if octets ≤ limit then .ok () else .error (.trap .capacity)

/-- The word whose lowest `n` bits are set; all of them from 64 on. -/
def lowMask (n : Nat) : Except Stop Nat :=
  if 64 ≤ n then .ok (UInt64.size - 1)
  else do
    let top ← shiftLeft 1 n
    sub top 1

end Machine

end ColumnFile
