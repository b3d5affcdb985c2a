import ColumnFile.Buffer
import ColumnFile.RunLength.Decoder
import ColumnFile.RunLength.Encoder

/-! # Dictionaries

Byte strings stored as codes of a sorted dictionary of the distinct ones. The octets of the entries
lie in a heap, in which an entry reuses octets that are already there.

A dictionary stream holds the count of entries, the length of the heap and the heap; the offsets and
the lengths of the entries, each as a length and a run-length stream; and the run-length stream of
the codes.

* `Heap`, `Heap.add` — the octets of the entries.
* `Dictionary.entriesOf` — the distinct values in order.
* `Dictionary.encode` — the stream of a list of values.
* `Dictionary.expand` — the values of a stream, joined.
* `Dictionary.expandInto` — the values of a stream, added to a buffer one after the other.
-/

namespace ColumnFile

namespace Bytes

/-- Byte strings in dictionary order: by the first octet that differs, and a beginning before the
whole. -/
def compareLex : Bytes → Bytes → Ordering
  | [], [] => .eq
  | [], _ :: _ => .lt
  | _ :: _, [] => .gt
  | a :: as, b :: bs => if a < b then .lt else if b < a then .gt else compareLex as bs

/-- The first position at which `needle` occurs. -/
def find? (needle : Bytes) : (hay : Bytes) → Option Nat
  | [] => if needle.isEmpty then some 0 else none
  | b :: rest =>
    if needle.isPrefixOf (b :: rest) then some 0 else (find? needle rest).map (· + 1)

end Bytes

/-- A **heap** of octets that entries share. -/
structure Heap where
  /-- The octets. -/
  data : Bytes := []
deriving DecidableEq, Repr

namespace Heap

/-- How many of the last octets are searched for an occurrence to reuse. -/
def window : Nat := 4096

/-- Finds or adds the octets of a value; returns where they are. The empty value is at zero. -/
def add (h : Heap) (value : Bytes) : Nat × Heap :=
  if value.isEmpty then (0, h)
  else
    let start := h.data.length - window
    match Bytes.find? value (h.data.drop start) with
    | some pos => (start + pos, h)
    | none => (h.data.length, { data := h.data ++ value })

/-- Adds values one after the other; returns where each of them is. -/
def addAll : (values : List Bytes) → Heap → List Nat × Heap
  | [], h => ([], h)
  | v :: rest, h =>
    let (pos, h) := h.add v
    let (poss, h) := addAll rest h
    (pos :: poss, h)

end Heap

namespace Dictionary

/-! ## Encoding -/

/-- Adds a value to distinct values in order. -/
def insertEntry (v : Bytes) : List Bytes → List Bytes
  | [] => [v]
  | e :: rest =>
    match v.compareLex e with
    | .lt => v :: e :: rest
    | .eq => e :: rest
    | .gt => e :: insertEntry v rest

/-- The distinct values in order. -/
def entriesOf (values : List Bytes) : List Bytes :=
  values.foldl (fun entries v => insertEntry v entries) []

/-- The run-length stream of a table. -/
def encodeNumbers (numbers : List Nat) : Bytes :=
  RunEncoder.encodeAll false (numbers.map Int64.ofNat)

/-- A string of octets behind its length. -/
def withLength (bs : Bytes) : Bytes := Varint.encode (UInt64.ofNat bs.length) ++ bs

/-- The stream of a list of values. -/
def encode (values : List Bytes) : Bytes :=
  let entries := entriesOf values
  let (offsets, heap) := Heap.addAll entries {}
  Varint.encode (UInt64.ofNat entries.length) ++
    withLength heap.data ++
    withLength (encodeNumbers offsets) ++
    withLength (encodeNumbers (entries.map List.length)) ++
    encodeNumbers (values.map fun v => entries.idxOf v)

/-! ## Decoding -/

/-- The parts of a dictionary stream. -/
structure Parts where
  /-- The octets of the entries. -/
  heap : Bytes
  /-- Where each entry starts. -/
  offsets : List Int64
  /-- How long each entry is. -/
  lengths : List Int64
  /-- The run-length stream of the codes. -/
  codes : Bytes
deriving DecidableEq

/-- Reads a length and as many octets; a string that ends early is the given fault. -/
def readString (short : Fault) (bs : Bytes) : Except Fault (Bytes × Bytes) := do
  let (len, rest) ← Varint.read bs
  if rest.length < len.toNat then throw short
  return (rest.take len.toNat, rest.drop len.toNat)

/-- Reads one of the two tables. -/
def readTable (bs : Bytes) : Except Fault (List Int64 × Bytes) := do
  let (stream, rest) ← readString .dictionaryTable bs
  let numbers ← Run.readAll false stream
  return (numbers, rest)

/-- Takes a stream apart; both tables have one number for each entry. -/
def parse (bs : Bytes) : Except Fault Parts := do
  let (count, rest) ← Varint.read bs
  let (heap, rest) ← readString .dictionaryHeap rest
  let (offsets, rest) ← readTable rest
  let (lengths, codes) ← readTable rest
  if offsets.length ≠ count.toNat ∨ lengths.length ≠ count.toNat then
    throw .dictionaryTableLength
  return { heap, offsets, lengths, codes }

/-- The value that a code stands for. -/
def Parts.value (p : Parts) (code : Int64) : Except Fault Bytes :=
  match p.offsets[code.toUInt64.toNat]?, p.lengths[code.toUInt64.toNat]? with
  | some offset, some length =>
    if offset < 0 ∨ length < 0 then .error .dictionaryNegative
    else match p.heap.slice? offset.toInt.toNat length.toInt.toNat with
      | some value => .ok value
      | none => .error .dictionaryEntry
  | _, _ => .error .dictionaryCode

/-- The values of some codes joined, up to the first that stands for none, and whether all of them
stand for one. -/
def Parts.join (p : Parts) : List Int64 → Except Fault Unit × Bytes
  | [] => (.ok (), [])
  | code :: rest =>
    match p.value code with
    | .error e => (.error e, [])
    | .ok value =>
      let (result, values) := p.join rest
      (result, value ++ values)

/-- The values of a stream of codes joined, up to the first failure. -/
def Parts.joinRuns (p : Parts) (codes : Bytes) : Except Fault Unit × Bytes :=
  if codes = [] then (.ok (), [])
  else match _h : Run.read false codes with
    | .error e => (.error e, [])
    | .ok (run, rest) =>
      match p.join run with
      | (.error e, values) => (.error e, values)
      | (.ok (), values) =>
        let (result, more) := p.joinRuns rest
        (result, values ++ more)
termination_by codes.length
decreasing_by exact Run.read_length _h

/-- The values of a dictionary stream joined. After a failure the values before it are returned with
the fault. -/
def expand (bs : Bytes) : Except Fault Unit × Bytes :=
  match parse bs with
  | .error e => (.error e, [])
  | .ok p => p.joinRuns p.codes

/-! ## Decoding into a buffer -/

/-- Adds the values of some codes to a buffer, up to the first that stands for none. -/
def Parts.joinInto (p : Parts) : List Int64 → Buffer → Except Fault Unit × Buffer
  | [], out => (.ok (), out)
  | code :: rest, out =>
    match p.value code with
    | .error e => (.error e, out)
    | .ok value => p.joinInto rest (out.append value)

/-- Adds the values of a stream of codes to a buffer, up to the first failure. -/
def Parts.joinRunsInto (p : Parts) (codes : Bytes) (out : Buffer) : Except Fault Unit × Buffer :=
  if codes = [] then (.ok (), out)
  else match _h : Run.read false codes with
    | .error e => (.error e, out)
    | .ok (run, rest) =>
      match p.joinInto run out with
      | (.error e, out) => (.error e, out)
      | (.ok (), out) => p.joinRunsInto rest out
termination_by codes.length
decreasing_by exact Run.read_length _h

/-- Adds the values of a dictionary stream to a buffer. After a failure the values before it are
there. -/
def expandInto (bs : Bytes) (out : Buffer) : Except Fault Unit × Buffer :=
  match parse bs with
  | .error e => (.error e, out)
  | .ok p => p.joinRunsInto p.codes out

end Dictionary

end ColumnFile
