import ColumnFile.Fault

/-! # Checked configuration

The parts of a configuration that are given as texts and numbers, with the fault that a wrong one
causes.

* `Encoding.parse`, `StorageFormat.parse` — the value that a label stands for.
* `ColumnSpec.checkAlign` — refuses an alignment that data cannot have.
-/

namespace ColumnFile

/-- The encoding of a label. -/
def Encoding.parse (label : String) : Except Fault Encoding :=
  match Encoding.ofLabel? label with
  | some e => .ok e
  | none => .error (.unknownEncoding label)

/-- The storage format of a label. -/
def StorageFormat.parse (label : String) : Except Fault StorageFormat :=
  match [padded, dense].find? fun f => f.label == label with
  | some f => .ok f
  | none => .error (.unknownFormat label)

/-- Refuses an alignment that data cannot have. -/
def ColumnSpec.checkAlign (c : ColumnSpec) : Except Fault Unit :=
  if c.validAlign then .ok () else .error (.badAlign c.align c.name)

end ColumnFile
