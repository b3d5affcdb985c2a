import ColumnFile.Integer.Items
import ColumnFile.Proofs.Buffer
import ColumnFile.Proofs.Integer.Varint
import ColumnFile.Proofs.RunLength.Operations

/-! # Variable-length integers delimit themselves

Integers that are written one behind the other need nothing between them. A reader takes the bytes
up to the first one without its high bit, whatever comes before and behind them, and refuses more of
them than a word needs.

* **`Varint.Spans`** — the bytes of one integer, and where they lie.
* **`Varint.Kind.readAt_eq_ok_iff`** — which integer a reader takes from a place, and when there is
  one.
* **`Varint.inTurn_placed`** — integers read back in turn, by induction on them.
* **`Zigzag.ofBits_eq`**, **`Varint.Item.write_spec`** — the numbers and groups of words are those
  of numbers.
* **`Machine.readItem_eq`** — so is what a machine reads.
* **`Varint.items_delimited`** — all of it for streams of integers. -/

namespace ColumnFile

namespace Varint

variable {rest taken src : Bytes} {pos stop : Nat} {kind : Kind} {item : Item}

/-! ## (1) Places -/

/-- Both kinds of integers are read as numbers. -/
theorem Kind.read_eq (kind : Kind) (bs : Bytes) :
    kind.read bs = (readDigits maxLength bs).map fun p => (kind.item p.1, p.2) := by
  cases kind with
  | unsigned =>
      rw [Kind.read, Varint.read]
      cases readDigits maxLength bs <;> rfl
  | signed =>
      rw [Kind.read, readSigned, Varint.read]
      cases readDigits maxLength bs <;> rfl

/-- Both kinds of integers are read as words. -/
theorem Kind.read_bind (kind : Kind) (bs : Bytes) :
    kind.read bs = Varint.read bs >>= fun p => .ok (kind.item p.1.toNat, p.2) := by
  cases kind with
  | unsigned =>
      simp only [Kind.read, Kind.item, UInt64.ofNat_toNat]
      cases Varint.read bs <;> rfl
  | signed =>
      simp only [Kind.read, Kind.item, UInt64.ofNat_toNat, readSigned]
      cases Varint.read bs <;> rfl

/-- **The bytes of one integer** lie from a place up to another: they delimit a number, and are
between one and ten. -/
structure Spans (src : Bytes) (pos stop : Nat) : Prop where
  /-- There is a byte. -/
  least : pos + 1 ≤ stop
  /-- There are no more than the groups of a word. -/
  most : stop ≤ pos + 10
  /-- They are there. -/
  inside : stop ≤ src.length
  /-- The last of them is the first without its high bit. -/
  delimited : Delimited ((src.drop pos).take (stop - pos))

/-- Bytes that delimit a number lie from where they begin up to what is behind them. -/
theorem spans_of_append (hsrc : src.drop pos = taken ++ rest) (h : Delimited taken)
    (hmost : taken.length ≤ 10) :
    Spans src pos (pos + taken.length) ∧ src.length - rest.length = pos + taken.length := by
  have hsome : taken.length ≠ 0 := by
    intro hnone
    rw [List.length_eq_zero_iff.mp hnone] at h
    exact not_delimited_nil h
  have hlength := congrArg List.length hsrc
  rw [List.length_drop, List.length_append] at hlength
  refine ⟨⟨by omega, by omega, by omega, ?_⟩, by omega⟩
  rw [Nat.add_sub_cancel_left, hsrc, List.take_left' rfl]
  exact h

/-- **A reader takes** the bytes of one integer from its place, when there are such bytes, and fails
when there are none. -/
theorem Kind.readAt_eq_ok_iff : kind.readAt src pos = .ok (item, stop) ↔
    Spans src pos stop ∧ item = kind.item (ofGroups ((src.drop pos).take (stop - pos))) := by
  rw [Kind.readAt, Kind.read_eq]
  constructor
  · intro h
    obtain ⟨⟨item', rest⟩, hread, h⟩ := map_eq_ok h
    obtain ⟨⟨n, rest'⟩, hdigits, hread⟩ := map_eq_ok hread
    cases hread
    cases h
    obtain ⟨taken, hsrc, hmost, htaken, rfl⟩ := of_readDigits hdigits
    obtain ⟨hspans, hstop⟩ := spans_of_append hsrc htaken hmost
    dsimp only
    rw [hstop, Nat.add_sub_cancel_left, hsrc, List.take_left' rfl]
    exact ⟨hspans, rfl⟩
  · rintro ⟨⟨hleast, hmost, hinside, hdelimited⟩, rfl⟩
    -- from the place on there are the bytes of the integer and those behind it
    have hsplit : src.drop pos = (src.drop pos).take (stop - pos) ++ src.drop stop := by
      have hdrop : src.drop stop = (src.drop pos).drop (stop - pos) := by
        rw [List.drop_drop, Nat.add_sub_cancel' (Nat.le_of_succ_le hleast)]
      rw [hdrop, List.take_append_drop]
    have htaken : ((src.drop pos).take (stop - pos)).length ≤ maxLength := by
      rw [List.length_take, maxLength]
      omega
    generalize (src.drop pos).take (stop - pos) = taken at hsplit hdelimited htaken ⊢
    have hstop : src.length - (src.drop stop).length = stop := by
      rw [List.length_drop]
      omega
    rw [hsplit, readDigits_of_delimited _ hdelimited htaken]
    dsimp only [Except.map]
    rw [hstop]

/-! ## (2) Integers in turn -/

/-- **An integer reads back**, whatever follows it. -/
theorem Item.read_encode (item : Item) (rest : Bytes) :
    item.kind.read (item.encode ++ rest) = .ok (item, rest) := by
  cases item with
  | unsigned u =>
      rw [Item.kind, Item.encode, Kind.read, Varint.read_encode]
      rfl
  | signed v =>
      rw [Item.kind, Item.encode, Kind.read, readSigned_encodeSigned]
      rfl

/-- An integer at a place is read with the place at the end of its bytes. -/
theorem Item.readAt_encode (item : Item) (front rest : Bytes) :
    item.kind.readAt (front ++ item.encode ++ rest) front.length =
      .ok (item, (front ++ item.encode).length) := by
  rw [Kind.readAt, List.append_assoc, List.drop_left' rfl, Item.read_encode, ← List.append_assoc]
  dsimp only [Except.map]
  rw [List.length_append, Nat.add_sub_cancel]

/-- **Integers read back in turn**, by induction on them; those that were read are part of what is
before the others. -/
theorem inTurn_placed (items : List Item) (front rest : Bytes) :
    inTurn (Kind.readAt (front ++ items.flatMap Item.encode ++ rest))
      (items.map Item.kind) front.length =
      .ok (placed front.length items) := by
  induction items generalizing front with
  | nil => rfl
  | cons item items ih =>
      have hsrc : front ++ (item :: items).flatMap Item.encode ++ rest =
          front ++ item.encode ++ (items.flatMap Item.encode ++ rest) := by
        rw [List.flatMap_cons, List.append_assoc, List.append_assoc, List.append_assoc]
      have hrest := ih (front ++ item.encode)
      rw [List.append_assoc _ _ rest] at hrest
      rw [List.map_cons, inTurn, hsrc, Item.readAt_encode, ok_bind]
      dsimp only
      rw [hrest, ok_bind, List.length_append]
      rfl

end Varint

/-! ## (3) Words -/

namespace Zigzag

/-- A word shifted up by one and inverted if its sign is set has the position of its integer. -/
theorem toNat_shift_xor (w : BitVec 64) :
    (w <<< 1 ^^^ w.sshiftRight 63).toNat = position w.toInt := by
  have hshift : (w <<< 1).toNat = w.toNat * 2 % 2 ^ 64 := by
    rw [BitVec.toNat_shiftLeft, Nat.shiftLeft_eq, Nat.pow_one]
  have hsign := BitVec.msb_eq_decide w
  rw [BitVec.toInt_eq_msb_cond]
  cases hmsb : w.msb with
  | false =>
      -- all bits of the sign's word are clear, so none is inverted
      rw [hmsb, eq_comm, decide_eq_false_iff_not, Nat.not_le] at hsign
      have hzero : w >>> 63 = 0#64 := BitVec.eq_of_toNat_eq <| by
        rw [BitVec.toNat_ushiftRight, Nat.shiftRight_eq_div_pow, Nat.div_eq_of_lt hsign]
        rfl
      rw [BitVec.sshiftRight_eq_of_msb_false hmsb, hzero, BitVec.xor_zero, hshift,
        if_neg Bool.false_ne_true]
      show _ = 2 * w.toNat
      omega
  | true =>
      -- all bits of the sign's word are set, so each is inverted
      rw [hmsb, eq_comm, decide_eq_true_iff] at hsign
      have hbelow : (~~~w).toNat < 2 ^ 63 := by
        rw [BitVec.toNat_not]
        omega
      have hzero : ~~~w >>> 63 = 0#64 := BitVec.eq_of_toNat_eq <| by
        rw [BitVec.toNat_ushiftRight, Nat.shiftRight_eq_div_pow, Nat.div_eq_of_lt hbelow]
        rfl
      have hnegative : (w.toNat : Int) - (2 ^ 64 : Nat) = Int.negSucc (2 ^ 64 - 1 - w.toNat) := by
        have hw := w.isLt
        omega
      rw [BitVec.sshiftRight_eq_of_msb_true hmsb, hzero, BitVec.not_zero, BitVec.xor_allOnes,
        BitVec.toNat_not, hshift, if_pos rfl, hnegative, position]
      have hw := w.isLt
      omega

/-- **The number of an integer** is made of its bits. -/
theorem ofBits_eq (v : Int64) : ofBits v = encode v := by
  have hbits : (v <<< 1 ^^^ v >>> 63).toBitVec =
    v.toBitVec <<< 1 ^^^ v.toBitVec.sshiftRight 63 := by
    rw [Int64.toBitVec_xor, Int64.toBitVec_shiftLeft, Int64.toBitVec_shiftRight]
    rfl
  refine UInt64.toNat_inj.mp ?_
  rw [encode, UInt64.toNat_ofNat_of_lt' (position_lt v.le_toInt v.toInt_lt)]
  show (v <<< 1 ^^^ v >>> 63).toBitVec.toNat = _
  rw [hbits, toNat_shift_xor]
  rfl

end Zigzag

namespace Varint

variable {b : Buffer}

/-- A group with its high bit set. -/
theorem group_more (u : UInt64) : u.toUInt8 &&& 0x7F ||| 0x80 = UInt8.ofNat
    (u.toNat % 128 + 128) := by
  have hlow : (u.toUInt8 &&& 0x7F).toNat = u.toNat % 128 := by
    rw [UInt8.toNat_and, UInt64.toNat_toUInt8]
    show _ &&& 2 ^ 7 - 1 = _
    rw [Nat.and_two_pow_sub_one_eq_mod]
    omega
  have hbyte : (UInt8.ofNat (u.toNat % 128 + 128)).toNat = u.toNat % 128 + 128 := by
    rw [UInt8.toNat_ofNat', Nat.mod_eq_of_lt (by omega)]
  have hhigh : 2 ^ 7 * 1 + u.toNat % 128 = 2 ^ 7 * 1 ||| u.toNat % 128 :=
    Nat.two_pow_add_eq_or_of_lt (Nat.mod_lt _ (by decide)) 1
  refine UInt8.toNat_inj.mp ?_
  rw [UInt8.toNat_or, hlow, hbyte, Nat.or_comm, Nat.add_comm]
  exact hhigh.symm

/-- **The groups of a word** are those of its number, by induction on the word that is left. -/
theorem write_spec (h : b.Ordered) (u : UInt64) :
    (write b u).Ordered ∧ (write b u).committed = b.committed ++ encode u := by
  have h128 : (0x80 : UInt64).toNat = 128 := rfl
  induction b, u using write.induct with
  | case1 b u hlast =>
      have hlow : u.toNat < 128 := h128 ▸ UInt64.lt_iff_toNat_lt.mp hlast
      rw [write, if_pos hlast, encode, digits, if_pos hlow]
      exact ⟨(h.append _).1, h.committed_append _⟩
  | case2 b u hmore ih =>
      have hhigh : ¬ u.toNat < 128 := fun hlow => hmore (UInt64.lt_iff_toNat_lt.mpr (h128 ▸ hlow))
      -- what is left of the word is the number of the groups that are left
      have hnext : (u >>> 7).toNat = u.toNat / 128 := by
        rw [UInt64.toNat_shiftRight, Nat.shiftRight_eq_div_pow]
        rfl
      obtain ⟨hordered, hcommitted⟩ := ih (h.append _).1
      rw [write, if_neg hmore, encode, digits, if_neg hhigh, ← group_more, ← hnext]
      refine ⟨hordered, hcommitted.trans ?_⟩
      rw [Buffer.push, h.committed_append, List.append_assoc]
      rfl

/-- **An integer is written** behind what is committed. -/
theorem Item.write_spec (h : b.Ordered) (item : Item) :
    (item.write b).Ordered ∧ (item.write b).committed = b.committed ++ item.encode := by
  cases item with
  | unsigned u => exact Varint.write_spec h u
  | signed v =>
      rw [Item.write, Zigzag.ofBits_eq, Item.encode]
      exact Varint.write_spec h _

/-- **Integers are written** one behind the other. -/
theorem writeItems_spec (h : b.Ordered) (items : List Item) :
    (writeItems b items).Ordered ∧ (writeItems b items).committed =
      b.committed ++ items.flatMap Item.encode := by
  induction items generalizing b with
  | nil => exact ⟨h, (List.append_nil _).symm⟩
  | cons item items ih =>
      obtain ⟨hordered, hcommitted⟩ := item.write_spec h
      obtain ⟨hall, hrest⟩ := ih hordered
      refine ⟨hall, hrest.trans ?_⟩
      rw [hcommitted, List.flatMap_cons, List.append_assoc]

end Varint

/-! ## (4) Reading on a machine -/

namespace Machine

variable {src : Bytes} {pos : Nat}

/-- A reader that is followed gives the place behind what it took. -/
theorem Follows.eq_mapError {α : Type} {x : Except Stop (α × Nat)} {y : Except Fault (α × Bytes)}
    (h : Follows src x y) :
    x = (y.map fun p => (p.1, src.length - p.2.length)).mapError .fault := by
  cases h with
  | fault e => rfl
  | ok a pos hpos =>
      have hstop : src.length - (src.drop pos).length = pos := by
        rw [List.length_drop]
        omega
      dsimp only [Except.map, Except.mapError]
      rw [hstop]

/-- **An integer at a place** is read as a word; past the end there is none. -/
theorem follows_readItem (hsrc : src.length < 2 ^ 63) (kind : Varint.Kind) (pos : Nat) :
    Follows src (readItem src kind pos) (kind.read (src.drop pos)) := by
  have hread : Follows src (readVarint src turnsPerVarint 0 0 pos)
      ((Varint.read (src.drop pos)).map fun p => (p.1.toNat, p.2)) := by
    rcases Nat.le_total pos src.length with hpos | hpos
    · exact follows_readVarint hsrc hpos
    · -- no byte is there, and none is left from there on
      rw [List.drop_eq_nil_of_le hpos, turnsPerVarint, readVarint, List.getElem?_eq_none hpos]
      exact .fault _
  rw [Varint.Kind.read_bind]
  cases kind with
  | unsigned => exact .bind_map UInt64.toNat hread fun u stop hstop _ => .ok _ stop hstop
  | signed =>
      refine .bind_map UInt64.toNat hread ?_
      intro u stop hstop _
      dsimp only
      rw [zigzag_eq u.toNat_lt, ok_bind]
      exact .ok _ stop hstop

/-- **A machine reads** the integer that the plain reader reads, and never leaves its range. -/
theorem readItem_eq (hsrc : src.length < 2 ^ 63) (kind : Varint.Kind) (pos : Nat) :
    readItem src kind pos = (kind.readAt src pos).mapError .fault :=
  (follows_readItem hsrc kind pos).eq_mapError

end Machine

namespace Varint

/-- Readers that agree on every integer agree on integers in turn. -/
theorem inTurn_mapError {ε ε' : Type} {read : Kind → Nat → Except ε (Item × Nat)}
    {read' : Kind → Nat → Except ε' (Item × Nat)} {f : ε → ε'}
    (h : ∀ kind pos, read' kind pos = (read kind pos).mapError f) (kinds : List Kind) (pos : Nat) :
    inTurn read' kinds pos = (inTurn read kinds pos).mapError f := by
  induction kinds generalizing pos with
  | nil => rfl
  | cons kind kinds ih =>
      rw [inTurn, inTurn, h]
      cases read kind pos with
      | error e => rfl
      | ok p =>
          obtain ⟨item, stop⟩ := p
          show (inTurn read' kinds stop >>= fun items => .ok ((item, stop) :: items)) =
            (inTurn read kinds stop >>= fun items => .ok ((item, stop) :: items)).mapError f
          rw [ih]
          cases inTurn read kinds stop <;> rfl

/-! ## (5) Streams of integers -/

/-- **Variable-length integers delimit themselves.** Whatever integers are written one behind the
other, behind any bytes and before any others, they read back in turn with their kinds, each with
the place at the end of its bytes; and what a buffer takes of them, group by group, are these bytes.
On any bytes a reader takes one integer exactly when its bytes are there: between one and ten, of
which the last is the first without its high bit. A machine with words of 64 bits reads the same
from every place of every stream, or stops for the same fault. -/
theorem items_delimited :
    (∀ (items : List Item) (front rest : Bytes),
      inTurn (Kind.readAt (front ++ items.flatMap Item.encode ++ rest))
        (items.map Item.kind) front.length =
        .ok (placed front.length items)) ∧
    (∀ (b : Buffer) (items : List Item), b.Ordered →
      (writeItems b items).committed = b.committed ++ items.flatMap Item.encode) ∧
    (∀ (kind : Kind) (src : Bytes) (pos stop : Nat) (item : Item),
      kind.readAt src pos = .ok (item, stop) ↔
      Spans src pos stop ∧ item = kind.item (ofGroups ((src.drop pos).take (stop - pos)))) ∧
    (∀ (src : Bytes) (kinds : List Kind) (pos : Nat), src.length < 2 ^ 63 →
      inTurn (Machine.readItem src) kinds pos =
        (inTurn (Kind.readAt src) kinds pos).mapError .fault) :=
  ⟨inTurn_placed, fun _ items h => (writeItems_spec h items).2,
    fun _ _ _ _ _ => Kind.readAt_eq_ok_iff,
    fun _ kinds pos hsrc => inTurn_mapError (Machine.readItem_eq hsrc) kinds pos⟩

/-- The integers whose numbers have a tenth group, behind two bytes and before one. They are written
to a buffer and read back by a machine; the first of them lies in bytes 2 to 11. The bytes before it
run on into it, past the groups of a word, so no integer begins there. -/
theorem items_delimited_ten_groups :
    let items := [.unsigned 0x8000000000000000, .unsigned 0xFFFFFFFFFFFFFFFF,
      .signed Int64.minValue, .signed Int64.maxValue]
    let src := [0x80, 0xFF] ++ items.flatMap Item.encode ++ [0x80]
    (Buffer.borrow [0x80, 0xFF]).Ordered ∧ src.length < 2 ^ 63 ∧
      (writeItems (Buffer.borrow [0x80, 0xFF]) items).committed =
        [0x80, 0xFF] ++ (List.replicate 9 0x80 ++ [0x01]) ++ (List.replicate 9 0xFF ++ [0x01]) ++
          (List.replicate 9 0xFF ++ [0x01]) ++ ([0xFE] ++ List.replicate 8 0xFF ++ [0x01]) ∧
      inTurn (Machine.readItem src) (items.map Item.kind) 2 = .ok (items.zip [12, 22, 32, 42]) ∧
      Spans src 2 12 ∧ ∀ stop, ¬ Spans src 0 stop := by
  intro items src
  have hordered : (Buffer.borrow [0x80, 0xFF]).Ordered := by decide
  have hsrc : src.length < 2 ^ 63 := by decide +kernel
  have hplaced : placed 2 items = items.zip [12, 22, 32, 42] := by decide +kernel
  have hread := items_delimited.1 items [0x80, 0xFF] [0x80]
  have hfirst : Kind.unsigned.readAt src 2 = .ok (.unsigned 0x8000000000000000, 12) := by
    decide +kernel
  have hnone : Kind.unsigned.readAt src 0 = .error .varintTooLong := by decide +kernel
  refine ⟨hordered, hsrc, ?_, ?_, ((items_delimited.2.2.1 _ _ _ _ _).mp hfirst).1, ?_⟩
  · exact (items_delimited.2.1 _ items hordered).trans (by decide +kernel)
  · rw [items_delimited.2.2.2 src _ 2 hsrc, ← hplaced]
    exact congrArg (Except.mapError Stop.fault) hread
  · intro stop hspans
    have htaken := (items_delimited.2.2.1 .unsigned src 0 stop _).mpr ⟨hspans, rfl⟩
    rw [hnone] at htaken
    cases htaken

end Varint

end ColumnFile
