import ColumnFile.Fault
import ColumnFile.MessagePack.Decode
import ColumnFile.MessagePack.Encode
import ColumnFile.MessagePack.Shape

/-! # Messages

Whatever a file holds beside its streams is a message: a record in MessagePack form.

* `Message.encode` — the octets of a record of a shape.
* `Message.ofValue?` — the record that a value stands for.
* `Message.decode` — the record at the beginning of some octets.
-/

namespace ColumnFile.Message

open MessagePack (Shaped Value)

/-- The octets of a record. -/
def encode {α : Type} [Shaped α] (a : α) : Bytes := (Shaped.shape.write a).encode

/-- How many levels deep a message may be nested. -/
def maxLevels : Nat := 1023

/-- The record that a value stands for. -/
def ofValue? (α : Type) [Shaped α] (v : Value) : Option α := Shaped.shape.read maxLevels v

/-- The record at the beginning of some octets; what follows it is left alone. -/
def decode (α : Type) [Shaped α] (bs : Bytes) : Except Fault α :=
  match Value.decode? bs >>= ofValue? α with
  | some a => .ok a
  | none => .error .external

end ColumnFile.Message
