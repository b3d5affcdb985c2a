import ColumnFile.Bitmap
import ColumnFile.RunLength.Run

/-! # Run-length decoding

A run-length stream is read run by run. A decoder keeps the values of the last run that were not
asked for yet, so reading can stop and go on anywhere.

* `Run.readAll` — all values of a stream.
* `RunDecoder` — a stream and the pending values of its last run.
* `RunDecoder.next`, `RunDecoder.take`, `RunDecoder.takeSet` — the next value, the next values, and
  as many values as a bitmap has set bits, one by one. -/

namespace ColumnFile

namespace Run

/-! ## Reading takes bytes -/

/-- An octet is taken. -/
theorem readByte_length {bs rest : Bytes} {b : UInt8} (h : readByte bs = .ok (b, rest)) :
    rest.length < bs.length := by
  cases bs with
  | nil => simp [readByte] at h
  | cons c tail =>
    simp only [readByte, Except.ok.injEq, Prod.mk.injEq] at h
    simp [← h.2]

/-- Octets are taken, or none. -/
theorem readBE_length {size n : Nat} {bs rest : Bytes} (h : readBE size bs = .ok (n, rest)) :
    rest.length ≤ bs.length := by
  unfold readBE at h
  split at h
  next => cases h
  next front tail ht =>
    cases h
    exact Bytes.length_le_of_take? ht

/-- A number has an octet at least. -/
theorem readDigits_length {limit n : Nat} {bs rest : Bytes}
    (h : Varint.readDigits limit bs = .ok (n, rest)) : rest.length < bs.length := by
  induction limit generalizing n bs rest with
  | zero => cases bs <;> simp [Varint.readDigits] at h
  | succ limit ih =>
    cases bs with
    | nil => simp [Varint.readDigits] at h
    | cons b tail =>
      simp only [Varint.readDigits] at h
      split at h
      · cases h
        simp
      · cases hr : Varint.readDigits limit tail with
        | error e => simp [hr, bind, Except.bind] at h
        | ok p =>
          simp only [hr, bind, Except.bind, pure, Except.pure, Except.ok.injEq,
            Prod.mk.injEq] at h
          have := ih hr
          simp only [List.length_cons, ← h.2]
          omega

/-- A word has an octet at least. -/
theorem readVarint_length {u : UInt64} {bs rest : Bytes} (h : Varint.read bs = .ok (u, rest)) :
    rest.length < bs.length := by
  unfold Varint.read at h
  cases hr : Varint.readDigits Varint.maxLength bs with
  | error e => simp [hr, bind, Except.bind] at h
  | ok p =>
    simp only [hr, bind, Except.bind, pure, Except.pure, Except.ok.injEq, Prod.mk.injEq] at h
    rw [← h.2]
    exact readDigits_length hr

/-- A number with a sign has an octet at least. -/
theorem readSignedVarint_length {v : Int64} {bs rest : Bytes}
    (h : Varint.readSigned bs = .ok (v, rest)) : rest.length < bs.length := by
  unfold Varint.readSigned at h
  cases hr : Varint.read bs with
  | error e => simp [hr, bind, Except.bind] at h
  | ok p =>
    simp only [hr, bind, Except.bind, pure, Except.pure, Except.ok.injEq, Prod.mk.injEq] at h
    rw [← h.2]
    exact readVarint_length hr

/-- Packed numbers take octets, or none. -/
theorem readPacked_length {count width : Nat} {bs rest : Bytes} {values : List Nat}
    (h : Packing.read count width bs = .ok (values, rest)) : rest.length ≤ bs.length := by
  simp only [Packing.read, bind, Except.bind, pure, Except.pure] at h
  split at h
  · cases h
  · cases h
    simp

/-- The count of a run takes an octet. -/
theorem readCount_length {first : UInt8} {n : Nat} {bs rest : Bytes}
    (h : readCount first bs = .ok (n, rest)) : rest.length < bs.length := by
  unfold readCount at h
  cases hr : readByte bs with
  | error e => simp [hr, bind, Except.bind] at h
  | ok p =>
    simp only [hr, bind, Except.bind, pure, Except.pure, Except.ok.injEq, Prod.mk.injEq] at h
    rw [← h.2]
    exact readByte_length hr

/-- A short repeat takes octets, or none. -/
theorem readShortRepeat_length {signed : Bool} {first : UInt8} {bs rest : Bytes}
    {vs : List Int64} (h : readShortRepeat signed first bs = .ok (vs, rest)) :
    rest.length ≤ bs.length := by
  simp only [readShortRepeat, bind, Except.bind, pure, Except.pure] at h
  split at h
  · cases h
  · rename_i hr
    cases h
    exact readBE_length hr

/-- A direct run takes octets, or none. -/
theorem readDirect_length {signed : Bool} {first : UInt8} {bs rest : Bytes}
    {vs : List Int64} (h : readDirect signed first bs = .ok (vs, rest)) :
    rest.length ≤ bs.length := by
  simp only [readDirect, bind, Except.bind, pure, Except.pure] at h
  split at h
  · cases h
  · rename_i hc
    split at h
    · cases h
    · rename_i hp
      cases h
      exact Nat.le_trans (readPacked_length hp) (Nat.le_of_lt (readCount_length hc))

/-- A patched run takes octets, or none. -/
theorem readPatchedBase_length {first : UInt8} {bs rest : Bytes} {vs : List Int64}
    (h : readPatchedBase first bs = .ok (vs, rest)) : rest.length ≤ bs.length := by
  simp only [readPatchedBase, bind, Except.bind, pure, Except.pure, throw, throwThe,
    MonadExceptOf.throw] at h
  split at h
  · cases h
  rename_i hcount
  split at h
  · cases h
  rename_i hthird
  split at h
  · cases h
  rename_i hfourth
  split at h
  · cases h
  split at h
  · cases h
  rename_i hbase
  split at h
  · cases h
  rename_i hreduced
  split at h
  · cases h
  rename_i hpatches
  split at h
  · cases h
  cases h
  -- no part gives octets back
  have h₁ := readCount_length hcount
  have h₂ := readByte_length hthird
  have h₃ := readByte_length hfourth
  have h₄ := readBE_length hbase
  have h₅ := readPacked_length hreduced
  have h₆ := readPacked_length hpatches
  omega

/-- A run of differences takes octets, or none. -/
theorem readDelta_length {signed : Bool} {first : UInt8} {bs rest : Bytes}
    {vs : List Int64} (h : readDelta signed first bs = .ok (vs, rest)) :
    rest.length ≤ bs.length := by
  simp only [readDelta, bind, Except.bind, pure, Except.pure, throw, throwThe,
    MonadExceptOf.throw] at h
  split at h
  · cases h
  rename_i hcount
  split at h
  · cases h
  rename_i hstart
  split at h
  · cases h
  rename_i hstep
  have h₁ := readCount_length hcount
  have h₂ := readVarint_length hstart
  have h₃ := readSignedVarint_length hstep
  split at h
  · cases h
    omega
  · split at h
    · cases h
    · split at h
      · cases h
      · rename_i hpacked
        cases h
        have h₄ := readPacked_length hpacked
        omega

/-- A run takes at least one byte. -/
theorem read_length {signed : Bool} {bs rest : Bytes} {vs : List Int64}
    (h : read signed bs = .ok (vs, rest)) : rest.length < bs.length := by
  simp only [read, bind, Except.bind] at h
  split at h
  · cases h
  · rename_i hfirst
    have h₁ := readByte_length hfirst
    split at h
    · have := readShortRepeat_length h
      omega
    · have := readDirect_length h
      omega
    · have := readPatchedBase_length h
      omega
    · have := readDelta_length h
      omega

/-- The values of all runs of a stream. -/
def readAll (signed : Bool) (bs : Bytes) : Except Fault (List Int64) :=
  if bs = [] then .ok []
  else match _h : read signed bs with
    | .error e => .error e
    | .ok (values, rest) => (readAll signed rest).map (values ++ ·)
termination_by bs.length
decreasing_by exact read_length _h

end Run

/-- A **run-length decoder**: the stream behind the last run and the values of that run that were
not asked for. -/
structure RunDecoder where
  /-- Whether the stream holds signed integers. -/
  signed : Bool
  /-- The stream behind the last run. -/
  rest : Bytes
  /-- The values of the last run that are still to come. -/
  pending : List Int64 := []
deriving DecidableEq

namespace RunDecoder

/-- The start of a stream. -/
def ofBytes (signed : Bool) (bs : Bytes) : RunDecoder where
  signed := signed
  rest := bs

/-- Whether values remain. -/
def hasMore (d : RunDecoder) : Bool := !d.pending.isEmpty || !d.rest.isEmpty

/-- The next value. -/
def next (d : RunDecoder) : Except Fault (Int64 × RunDecoder) :=
  match d.pending with
  | v :: vs => .ok (v, { d with pending := vs })
  | [] =>
    match Run.read d.signed d.rest with
    | .error e => .error e
    | .ok ([], _) => .error .runTruncated
    | .ok (v :: vs, rest) => .ok (v, { d with rest, pending := vs })

/-- The next `n` values. -/
def take : (n : Nat) → RunDecoder → Except Fault (List Int64 × RunDecoder)
  | 0, d => .ok ([], d)
  | n + 1, d => do
    let (v, d) ← d.next
    let (vs, d) ← take n d
    return (v :: vs, d)

/-- As many values as the bitmap has set bits from `start` up to but not including `stop`: the
values of the rows that are not null, when the stream holds those alone. -/
def takeSet (d : RunDecoder) (notNull : Bitmap) (start stop : Nat) :
    Except Fault (List Int64 × RunDecoder) :=
  take (notNull.countRange start stop) d

end RunDecoder

end ColumnFile
