import ColumnFile.Proofs.Integer.Cursor
import ColumnFile.Proofs.Integer.Writer

/-! # Packed numbers are a stream of bits

What packing writes is the low bits of the numbers, run after run, each run filled up with zeros to
a whole byte; and what a cursor reads are the next bits, as numbers. Neither depends on whether the
bits fill whole bytes, on where in a byte a number begins, or on how many numbers are asked for at a
time.

* **`numberOf`**, **`slices`** — the numbers that a list of bits holds.
* **`BitCursor.At`** — a cursor at a place of a byte string, counted in bits; `At.read_enough`,
  `At.read_lacking` and `At.align` are its steps.
* **`BitCursor.answers`**, **`bitAnswers`** — what a cursor answers to requests, and what the bits
  do.
* **`Packing.Reading`** — a run and the pieces in which it is read back.
* **`Packing.stream_of_bits`** — all of this, for any runs and any requests. -/

namespace ColumnFile

/-! ## (1) Numbers of bits -/

/-- **The number** whose binary digits are given, the most significant one first. -/
def numberOf (bits : List Bool) : Nat := bits.foldl (fun n bit => 2 * n + bit.toNat) 0

/-- **The numbers** of `width` bits each that come first in a list of bits. -/
def slices (width : Nat) : (count : Nat) → List Bool → List Nat
  | 0, _ => []
  | count + 1, bits => numberOf (bits.take width) :: slices width count (bits.drop width)

/-- The digits of a number behind those of another. -/
theorem foldl_bitsOf (width acc n : Nat) :
    (bitsOf width n).foldl (fun n bit => 2 * n + bit.toNat) acc = acc * 2 ^ width + n % 2 ^
      width := by
  induction width generalizing acc with
  | zero => simp [Nat.mod_one]
  | succ width ih =>
      rw [bitsOf_succ, List.foldl_cons, ih, Nat.pow_succ, Nat.mod_mul, ← Nat.toNat_testBit]
      ring

@[simp] theorem numberOf_bitsOf (width n : Nat) : numberOf (bitsOf width n) = n % 2 ^ width := by
  rw [numberOf, foldl_bitsOf, Nat.zero_mul, Nat.zero_add]

/-- **The numbers are read off their bits**, each without what its width does not hold. -/
theorem slices_flatMap (width : Nat) (values : List Nat) (rest : List Bool) :
    slices width values.length (values.flatMap (bitsOf width) ++ rest) =
      values.map (· % 2 ^ width) := by
  induction values with
  | nil => rfl
  | cons v values ih =>
      rw [List.flatMap_cons, List.append_assoc, List.length_cons, slices,
        List.take_left' (length_bitsOf width v), List.drop_left' (length_bitsOf width v), ih,
        numberOf_bitsOf, List.map_cons]

/-- Whole octets are dropped from a byte string as their bits are. -/
theorem Bytes.bits_drop (bs : Bytes) (n : Nat) : Bytes.bits (bs.drop n) = bs.bits.drop (8 * n) := by
  induction n generalizing bs with
  | zero => rfl
  | succ n ih =>
      cases bs with
      | nil => simp
      | cons b rest =>
          rw [List.drop_succ_cons, ih, Bytes.bits_cons, Nat.mul_succ, Nat.add_comm,
            ← List.drop_drop, List.drop_left' (length_bitsOf 8 _)]

/-! ## (2) A cursor at a place -/

namespace BitCursor

variable {c : BitCursor} {src : Bytes} {place count width : Nat}

/-- **A cursor at a place** of a byte string, which is counted in bits: it has touched the byte
before that place, or the byte in which it is, and has the bits from there on to read. -/
structure At (c : BitCursor) (src : Bytes) (place : Nat) : Prop where
  source : c.src = src.toArray
  inside : c.pos ≤ src.length
  left : c.bitsLeft < 8
  reached : place + c.bitsLeft = 8 * c.pos
  bits : c.bits = src.bits.drop place

/-- The start of any byte, or the end. -/
theorem at_byte {start : Nat} (h : start ≤ src.length) :
    At { ofBytes src with pos := start } src (8 * start) :=
  ⟨rfl, h, Nat.zero_lt_succ 7, rfl, Bytes.bits_drop src start⟩

/-- A cursor at a place is behind the octet in which that place is. -/
theorem At.pos_eq (h : c.At src place) : c.pos = (place + 7) / 8 := by
  have hleft := h.left
  have hplace := h.reached
  omega

/-- A cursor has all octets of its source. -/
theorem At.size_eq (h : c.At src place) : c.src.size = src.length := by
  rw [h.source, List.size_toArray]

/-- **The bits that are left** and those before them are all bits. -/
theorem At.length_bits (h : c.At src place) : place + c.bits.length = 8 * src.length := by
  have hplace := h.reached
  have hinside := h.inside
  rw [BitCursor.length_bits, h.size_eq]
  omega

/-- **Dropping the unread bits of a byte** goes on to the next one. -/
theorem At.align (h : c.At src place) : c.align.At src (8 * ((place + 7) / 8)) := by
  refine ⟨h.source, h.inside, Nat.zero_lt_succ 7, ?_, ?_⟩
  · rw [← h.pos_eq]
    rfl
  · have hahead : c.align.bits = Bytes.bits (src.drop c.pos) := by
      show Bytes.bits (c.src.toList.drop c.pos) = _
      rw [h.source]
    rw [hahead, Bytes.bits_drop, h.pos_eq]

/-- A result that takes numbers off the bits that a cursor has not read takes the next slices of
them. -/
theorem At.takes {result : Except Fault (List Nat × BitCursor)} (h : c.At src place)
    (htakes : TakesAll count width c.bits result)
    (hstays : ∀ values c', result = .ok (values, c') → c'.src = c.src ∧ c'.bitsLeft < 8) :
    ∃ c', result = .ok (slices width count (src.bits.drop place), c') ∧
      c'.At src (place + count * width) := by
  obtain ⟨values, c', rfl, rfl, hfits, hbits, hpos⟩ := htakes
  obtain ⟨hsrc, hleft⟩ := hstays values c' rfl
  have hvalues : values.map (· % 2 ^ width) = values := by
    conv_rhs => rw [← List.map_id values]
    exact List.map_congr_left fun v hv => Nat.mod_eq_of_lt (hfits v hv)
  have hslices : slices width values.length (src.bits.drop place) = values := by
    rw [← h.bits, hbits, slices_flatMap, hvalues]
  have hunread : c'.bits = src.bits.drop (place + values.length * width) := by
    rw [← List.drop_drop, ← h.bits, hbits, List.drop_left' (length_flatMap_bitsOf width values)]
  have hinside : c'.pos ≤ src.length := by
    rw [hsrc, h.size_eq] at hpos
    exact hpos
  refine ⟨c', by rw [hslices], hsrc.trans h.source, hinside, hleft, ?_, hunread⟩
  -- as many bits were taken as the place has moved
  have htotal := congrArg List.length hbits
  rw [List.length_append, length_flatMap_bitsOf, BitCursor.length_bits c', hsrc,
    h.size_eq] at htotal
  have hlength := h.length_bits
  omega

/-- **Numbers that are there** are the next slices of the bits, and the cursor moves on behind
them. -/
theorem At.read_enough (h : c.At src place)
    (hthere : place + count * Packing.rung width ≤ 8 * src.length) :
    ∃ c', c.read count width = .ok (slices (Packing.rung width) count (src.bits.drop place), c') ∧
      c'.At src (place + count * Packing.rung width) := by
  have hlength := h.length_bits
  have hpos : c.pos ≤ c.src.size := h.size_eq ▸ h.inside
  refine h.takes ?_ fun values c' hread => ⟨src_of_read hread, bitsLeft_read h.left hread⟩
  by_cases hw : width = 0
  · -- numbers of width zero are zeros, and no bit is read for them
    subst hw
    refine ⟨List.replicate count 0, c, if_pos rfl, List.length_replicate, ?_, ?_, hpos⟩
    · intro v hv
      rw [(List.mem_replicate.mp hv).2]
      exact Nat.two_pow_pos _
    · have hnone : (List.replicate count 0).flatMap (bitsOf (Packing.rung 0)) = [] :=
        List.flatMap_eq_nil_iff.mpr fun v hv => rfl
      rw [hnone, List.nil_append]
  · have hrung : Packing.rung width = Width.aligned width := if_neg hw
    rw [hrung] at hthere ⊢
    exact read_spec c count hw (by omega) hpos

/-- **Numbers that are not there** are refused. -/
theorem At.read_lacking (h : c.At src place)
    (hshort : 8 * src.length < place + count * Packing.rung width) :
    c.read count width = .error .packedTruncated := by
  have hlength := h.length_bits
  exact BitCursor.read_lacking (h.size_eq ▸ h.inside) (by omega)

/-- What is seen of a cursor behind the numbers that it read. -/
def seen (p : List Nat × BitCursor) : List Nat × Nat × Nat := (p.1, p.2.pos, p.2.bitsLeft)

/-- What is seen of a read is told by the place of the cursor. -/
theorem At.seen_eq {values : List Nat} (h : c.At src place) :
    seen (values, c) = (values, (place + 7) / 8, 8 * ((place + 7) / 8) - place) := by
  rw [seen, ← h.pos_eq, ← h.reached, Nat.add_sub_cancel_left]

/-- **Whole bytes that are taken at once** are the numbers that would be read bit by bit. -/
theorem At.read_eq_readEach (h : c.At src place) (count : Nat) {width : Nat} (hw : width ≠ 0) :
    (c.read count width).map seen = (readEach (Width.aligned width) count c).map seen := by
  have hlength := h.length_bits
  have hpos : c.pos ≤ c.src.size := h.size_eq ▸ h.inside
  have hrung : Packing.rung width = Width.aligned width := if_neg hw
  by_cases hthere : place + count * Width.aligned width ≤ 8 * src.length
  · have hrungs : place + count * Packing.rung width ≤ 8 * src.length := hrung ▸ hthere
    have htakes : TakesAll count (Width.aligned width) c.bits
      (readEach (Width.aligned width) count c) :=
      readEach_spec (by omega) hpos
    obtain ⟨c₁, hread, hat₁⟩ := h.read_enough hrungs
    obtain ⟨c₂, heach, hat₂⟩ := h.takes htakes
      fun values c' heach => ⟨src_of_readEach heach, bitsLeft_readEach h.left heach⟩
    rw [hread, heach, Except.map, Except.map, hat₁.seen_eq, hat₂.seen_eq, hrung]
  · have hshort : c.bits.length < count * Width.aligned width := by omega
    rw [readEach_short hshort hpos, BitCursor.read_lacking hpos (hrung ▸ hshort)]

/-! ## (3) Requests -/

/-- A **request** to a cursor. -/
inductive Request
  /-- The next numbers of a nominal width. -/
  | read (count width : Nat)
  /-- To go on to the start of a byte. -/
  | align

/-- What a cursor does when it is asked. -/
def call (c : BitCursor) : Request → Except Fault (List Nat × BitCursor)
  | .read count width => c.read count width
  | .align => .ok ([], c.align)

/-- The answers to requests made in turn, up to the first that fails: the numbers, the byte position
and how many bits of the last byte are left. -/
def answers : BitCursor → List Request → List (Except Fault (List Nat × Nat × Nat))
  | _, [] => []
  | c, r :: requests =>
    match c.call r with
    | .error e => [.error e]
    | .ok (values, c) => .ok (seen (values, c)) :: answers c requests

/-- **What the bits answer** to requests made in turn from a place on: the next slices while there
are enough of them, and a failure otherwise. -/
def bitAnswers (bits : List Bool) : (place : Nat) → List Request →
    List (Except Fault (List Nat × Nat × Nat))
  | _, [] => []
  | place, .align :: requests =>
    .ok ([], (place + 7) / 8, 0) :: bitAnswers bits (8 * ((place + 7) / 8)) requests
  | place, .read count width :: requests =>
    let stop := place + count * Packing.rung width
    if stop ≤ bits.length then
      .ok (slices (Packing.rung width) count (bits.drop place), (stop + 7) / 8,
        8 * ((stop + 7) / 8) - stop) ::
        bitAnswers bits stop requests
    else [.error .packedTruncated]

/-- **A cursor at a place** answers as the bits do. -/
theorem At.answers_eq (h : c.At src place) (requests : List Request) :
    c.answers requests = bitAnswers src.bits place requests := by
  induction requests generalizing c place with
  | nil => rfl
  | cons r requests ih =>
      cases r with
      | align =>
          rw [answers, bitAnswers, call]
          dsimp only
          have hseen : seen ([], c.align) = ([], (place + 7) / 8, 0) := by
            rw [← h.pos_eq]
            rfl
          rw [hseen, ih h.align]
      | read count width =>
          rw [answers, bitAnswers, call, Bytes.length_bits]
          by_cases hthere : place + count * Packing.rung width ≤ 8 * src.length
          · obtain ⟨c', hread, hat⟩ := h.read_enough hthere
            rw [if_pos hthere, hread]
            dsimp only
            rw [hat.seen_eq, ih hat]
          · rw [if_neg hthere, h.read_lacking (Nat.not_le.mp hthere)]

end BitCursor

namespace Packing

variable {c : BitCursor} {src : Bytes} {place : Nat}

/-! ## (4) Runs -/

/-- **A run**, and the pieces in which it is read back. -/
structure Reading where
  /-- The integers. -/
  values : List Int64
  /-- Their nominal width. -/
  width : Nat
  /-- How many of them are read at a time. -/
  counts : List Nat
  /-- All of them are read. -/
  whole : counts.sum = values.length

/-- The integers of a run as numbers of 64 bits. -/
def Reading.numbers (r : Reading) : List Nat := r.values.map fun v => v.toUInt64.toNat

@[simp] theorem Reading.length_numbers (r : Reading) : r.numbers.length = r.values.length :=
  List.length_map _

/-- How many bits are missing in the last byte behind `n` bits. -/
def fillingOf (n : Nat) : Nat := (8 - n % 8) % 8

/-- The bits of a run: those of its numbers, and zeros up to a whole byte. -/
def Reading.bits (r : Reading) : List Bool :=
  r.numbers.flatMap (bitsOf (rung r.width)) ++
    List.replicate (fillingOf (r.numbers.length * rung r.width)) false

/-- Runs that are written one after the other into a buffer. -/
def writeAll (out : Buffer) (readings : List Reading) : Buffer :=
  readings.foldl (fun out r => write out r.values r.width) out

/-- The bytes of runs that are packed one after the other. -/
def packAll (readings : List Reading) : Bytes := readings.flatMap fun r => pack r.numbers r.width

/-- **A packed run** is the low bits of its numbers, filled up with zeros to a whole byte. -/
theorem bits_pack (r : Reading) : (pack r.numbers r.width).bits = r.bits := by
  unfold pack Reading.bits
  by_cases hw : r.width = 0
  · have hnone : r.numbers.flatMap (bitsOf (rung r.width)) = [] := by
      rw [hw]
      exact List.flatMap_eq_nil_iff.mpr fun v hv => rfl
    rw [if_pos hw, hnone, rung, if_pos hw, Nat.mul_zero]
    rfl
  · obtain ⟨filling, hfill, hbits⟩ :=
      bits_packAfter (Width.aligned r.width) 0 0 r.numbers (by decide)
    have hlength := congrArg List.length hbits
    rw [Bytes.length_bits, bitsOf_zero, List.nil_append, List.length_append, length_flatMap_bitsOf,
      List.length_replicate] at hlength
    have hfilling : filling = fillingOf (r.numbers.length * Width.aligned r.width) := by
      unfold fillingOf
      omega
    rw [if_neg hw, hbits, bitsOf_zero, List.nil_append, rung, if_neg hw, hfilling]

/-- **The bits of all readings** are those of each, one behind the other. -/
theorem bits_packAll (readings : List Reading) :
    (packAll readings).bits = readings.flatMap Reading.bits := by
  induction readings with
  | nil => rfl
  | cons r readings ih =>
      rw [packAll, List.flatMap_cons, Bytes.bits_append, bits_pack, List.flatMap_cons, ← ih]
      rfl

/-- **Runs are written** as the bytes that packing gives, behind what is committed. -/
theorem writeAll_spec {out : Buffer} (h : out.Ordered) (readings : List Reading) :
    (writeAll out readings).Ordered ∧
      (writeAll out readings).committed = out.committed ++ packAll readings := by
  induction readings generalizing out with
  | nil => exact ⟨h, (List.append_nil _).symm⟩
  | cons r readings ih =>
      obtain ⟨hordered, hcommitted⟩ := write_spec h r.values r.width
      obtain ⟨hall, hrest⟩ := ih hordered
      refine ⟨hall, hrest.trans ?_⟩
      rw [hcommitted, List.append_assoc]
      rfl

/-! ## (5) Runs read back -/

/-- Reads numbers of a nominal width in pieces, and joins them. -/
def readPieces (width : Nat) : (counts : List Nat) → BitCursor → Except Fault (List Nat × BitCursor)
  | [], c => .ok ([], c)
  | count :: counts, c => do
    let (values, c) ← c.read count width
    let (more, c) ← readPieces width counts c
    return (values ++ more, c)

/-- Reads runs in turn, each in its pieces; returns the numbers of each run and the byte behind
it. -/
def readRuns : List Reading → BitCursor → Except Fault (List (List Nat × Nat))
  | [], _ => .ok []
  | r :: readings, c => do
    let (values, c) ← readPieces r.width r.counts c
    let rest ← readRuns readings c.align
    return (values, c.pos) :: rest

/-- What is to be read of runs that begin at a byte: the numbers without what their width does not
hold, and where each run ends. -/
def readingsFrom : (start : Nat) → List Reading → List (List Nat × Nat)
  | _, [] => []
  | start, r :: readings =>
    let stop := start + (pack r.numbers r.width).length
    (r.numbers.map (· % 2 ^ rung r.width), stop) :: readingsFrom stop readings

/-- **A run reads back in any pieces.** -/
theorem readPieces_spec {width : Nat} {counts values : List Nat} {rest : List Bool}
    (h : c.At src place) (hwhole : counts.sum = values.length)
    (hbits : src.bits.drop place = values.flatMap (bitsOf (rung width)) ++ rest) :
    ∃ c', readPieces width counts c = .ok (values.map (· % 2 ^ rung width), c') ∧
      c'.At src (place + values.length * rung width) := by
  -- call after call; each takes its share of the numbers from where the one before it stopped
  induction counts generalizing c place values with
  | nil =>
      have hnil : values = [] := List.length_eq_zero_iff.mp hwhole.symm
      subst hnil
      exact ⟨c, rfl, by rwa [List.length_nil, Nat.zero_mul, Nat.add_zero]⟩
  | cons count counts ih =>
      rw [List.sum_cons] at hwhole
      have hfront : (values.take count).length = count := by
        rw [List.length_take]
        omega
      have hback : counts.sum = (values.drop count).length := by
        rw [List.length_drop]
        omega
      have hsplit : src.bits.drop place = (values.take count).flatMap (bitsOf (rung width)) ++
          ((values.drop count).flatMap (bitsOf (rung width)) ++ rest) := by
        rw [← List.append_assoc, ← List.flatMap_append, List.take_append_drop, hbits]
      -- the numbers of the first call are there to be read
      have hthere : place + count * rung width ≤ 8 * src.length := by
        have hlength := congrArg List.length hsplit
        rw [← h.bits, List.length_append, length_flatMap_bitsOf, hfront] at hlength
        have hall := h.length_bits
        omega
      obtain ⟨c₁, hread, hat⟩ := h.read_enough hthere
      have hfirst : slices (rung width) count (src.bits.drop place) =
          (values.take count).map (· % 2 ^ rung width) := by
        have hslices := slices_flatMap (rung width) (values.take count)
          ((values.drop count).flatMap (bitsOf (rung width)) ++ rest)
        rw [hfront, ← hsplit] at hslices
        exact hslices
      have hnext : src.bits.drop (place + count * rung width) =
          (values.drop count).flatMap (bitsOf (rung width)) ++ rest := by
        rw [← List.drop_drop, hsplit,
          List.drop_left' (by rw [length_flatMap_bitsOf, hfront])]
      obtain ⟨c₂, hmore, hat'⟩ := ih hat hback hnext
      have hstop : place + count * rung width + (values.drop count).length * rung width =
          place + values.length * rung width := by
        rw [Nat.add_assoc, ← Nat.add_mul, ← hback, hwhole]
      refine ⟨c₂, ?_, hstop ▸ hat'⟩
      rw [readPieces, hread, ok_bind]
      dsimp only
      rw [hmore, ok_bind, hfirst]
      dsimp only
      rw [← List.map_append, List.take_append_drop]
      rfl

/-- **Runs read back**, one behind the other. -/
theorem readRuns_spec {readings : List Reading} {start : Nat} {rest : Bytes}
    (h : c.At src (8 * start)) (hsrc : src.drop start = packAll readings ++ rest) :
    readRuns readings c = .ok (readingsFrom start readings) := by
  induction readings generalizing c start with
  | nil => rfl
  | cons r readings ih =>
      have hrun : src.drop start = pack r.numbers r.width ++ (packAll readings ++ rest) := by
        rw [hsrc, packAll, List.flatMap_cons, List.append_assoc]
        rfl
      have hbits : src.bits.drop (8 * start) = r.numbers.flatMap (bitsOf (rung r.width)) ++
          (List.replicate (fillingOf (r.numbers.length * rung r.width)) false ++
            Bytes.bits (packAll readings ++ rest)) := by
        rw [← Bytes.bits_drop, hrun, Bytes.bits_append, bits_pack, Reading.bits, List.append_assoc]
      obtain ⟨c₁, hread, hat⟩ := readPieces_spec h (r.whole.trans r.length_numbers.symm) hbits
      have hpos : c₁.pos = start + (pack r.numbers r.width).length := by
        rw [hat.pos_eq, length_pack, size_eq]
        omega
      have halign : c₁.align.At src (8 * (start + (pack r.numbers r.width).length)) := by
        rw [← hpos, hat.pos_eq]
        exact hat.align
      have hnext : src.drop (start + (pack r.numbers r.width).length) = packAll readings ++
        rest := by
        rw [← List.drop_drop, hrun, List.drop_left' rfl]
      rw [readRuns, hread, ok_bind]
      dsimp only
      rw [ih halign hnext, ok_bind, hpos, readingsFrom]
      rfl

/-- **Packing is an exact stream of bits.** Runs of integers that are written one after the other
into a buffer leave the low bits of their numbers behind what is committed, the most significant one
first, at the width to which the nominal one is rounded, each run filled up with zeros to a whole
byte. Behind any octets and before any others, each run reads back in whatever pieces, with the rest
of its last byte dropped: every number without what its width does not hold, and the cursor behind
the run. From the start of any byte of any byte string, a cursor answers any requests as the bits
do, which give the next slices as numbers and fail exactly when too few bits are left, so whole
bytes that are taken at once are the numbers that would be read bit by bit. -/
theorem stream_of_bits (readings : List Reading) {out : Buffer} (hout : out.Ordered)
    (rest src : Bytes) (start : Nat) (hstart : start ≤ src.length)
    (requests : List BitCursor.Request) :
    (∃ packed, (writeAll out readings).committed = out.committed ++ packed ∧
        packed.bits = readings.flatMap Reading.bits) ∧
      readRuns readings { BitCursor.ofBytes ((writeAll out readings).committed ++ rest) with
          pos := out.committed.length } = .ok (readingsFrom out.committed.length readings) ∧
      BitCursor.answers { BitCursor.ofBytes src with pos := start } requests =
        BitCursor.bitAnswers src.bits (8 * start) requests ∧
      ∀ (c : BitCursor) (place count width : Nat), c.At src place → width ≠ 0 →
        (c.read count width).map BitCursor.seen =
          (BitCursor.readEach (Width.aligned width) count c).map BitCursor.seen := by
  obtain ⟨-, hcommitted⟩ := writeAll_spec hout readings
  refine ⟨⟨packAll readings, hcommitted, bits_packAll readings⟩, ?_,
    (BitCursor.at_byte hstart).answers_eq requests, ?_⟩
  · rw [hcommitted]
    have hinside : out.committed.length ≤ (out.committed ++ packAll readings ++ rest).length := by
      rw [List.append_assoc, List.length_append]
      exact Nat.le_add_right _ _
    have hbehind : (out.committed ++ packAll readings ++ rest).drop out.committed.length =
        packAll readings ++ rest := by
      rw [List.append_assoc, List.drop_left' rfl]
    exact readRuns_spec (BitCursor.at_byte hinside) hbehind
  · intro c place count width hat hw
    exact hat.read_eq_readEach count hw

/-- Three numbers of half a byte in two pieces, one of them too large for its width, two of no
width, and one of a byte behind an empty piece, into a borrowed buffer with one committed octet. And
a number of a byte that lies across two bytes, with too little left behind it. -/
theorem stream_of_bits_across_bytes :
    let readings : List Reading :=
      [⟨[5, 18, 7], 3, [1, 2], rfl⟩, ⟨[9, 9], 0, [2], rfl⟩, ⟨[-1], 8, [0, 1], rfl⟩]
    let out : Buffer := { mem := [0xEE, 0x77], used := 1, treated := 0, owned := false }
    out.Ordered ∧ 1 ≤ ([0xA5, 0x3C, 0xF0] : Bytes).length ∧
      (writeAll out readings).committed = [0xEE, 0x52, 0x70, 0xFF] ∧
      readRuns readings { BitCursor.ofBytes ([0xEE, 0x52, 0x70, 0xFF] ++ [0x11]) with pos := 1 } =
        .ok [([5, 2, 7], 3), ([0, 0], 3), ([255], 4)] ∧
      BitCursor.answers { BitCursor.ofBytes [0xA5, 0x3C, 0xF0] with pos := 1 }
          [.read 1 3, .read 1 8, .align, .read 1 1, .read 1 0] =
        [.ok ([3], 2, 4), .ok ([0xCF], 3, 4), .ok ([], 3, 0), .error .packedTruncated] := by
  intro readings out
  have hout : out.Ordered := by decide
  have hstart : 1 ≤ ([0xA5, 0x3C, 0xF0] : Bytes).length := by decide
  obtain ⟨-, hruns, hanswers, -⟩ := stream_of_bits readings hout [0x11] [0xA5, 0x3C, 0xF0] 1 hstart
    [.read 1 3, .read 1 8, .align, .read 1 1, .read 1 0]
  have hwritten : (writeAll out readings).committed = [0xEE, 0x52, 0x70, 0xFF] := by decide +kernel
  rw [hwritten] at hruns
  exact ⟨hout, hstart, hwritten, hruns.trans (by decide +kernel), hanswers.trans (by decide)⟩

end Packing

end ColumnFile
