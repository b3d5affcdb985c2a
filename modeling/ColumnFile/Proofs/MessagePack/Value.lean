import ColumnFile.MessagePack.Decode
import ColumnFile.MessagePack.Encode
import ColumnFile.Proofs.Integer.Bits

/-! # MessagePack values read back

Every value whose numbers and sizes fit the widest form there is reads back from its octets,
whatever follows them.

* **`Head.read_encodeNat`**, **`Head.read_encodeInt`** — numbers.
* **`Head.read_sizeHeader`**, **`Head.read_countHeader`** — sizes.
* **`Value.Sized`** — values that fit, nested no deeper than a reader goes.
* **`Value.read_encode`** — a value reads back. -/

namespace ColumnFile.MessagePack

variable {rest : Bytes} {n : Nat}

namespace Head

/-! ## (1) Numbers and sizes -/

/-- **A number of some octets** is read off the front. -/
theorem readNat_ofNatBE {width : Nat} (h : n < 256 ^ width) :
    readNat width (Bytes.ofNatBE width n ++ rest) = some (n, rest) := by
  have htake := Bytes.take?_append (Bytes.ofNatBE width n) rest
  rw [Bytes.length_ofNatBE] at htake
  rw [readNat, htake]
  show some (Bytes.toNatBE (Bytes.ofNatBE width n), rest) = _
  rw [Bytes.toNatBE_ofNatBE, Nat.mod_eq_of_lt h]

/-- A length of some octets is read behind its head. -/
theorem sized_ofNatBE (head : Nat → Head) {width : Nat} (h : n < 256 ^ width) :
    sized head width (Bytes.ofNatBE width n ++ rest) = some (head n, rest) := by
  rw [sized, readNat_ofNatBE h]
  rfl

/-- **A size behind its first octet**, of one, two or four octets. -/
theorem read_sizeHeader (head : Nat → Head) {one two four : UInt8} (h : n < 2 ^ 32)
    (hone : ∀ bs, read (one :: bs) = sized head 1 bs)
    (htwo : ∀ bs, read (two :: bs) = sized head 2 bs)
    (hfour : ∀ bs, read (four :: bs) = sized head 4 bs) :
    read (sizeHeader one two four n ++ rest) = some (head n, rest) := by
  unfold sizeHeader
  by_cases hsmall : n < 1 <<< 8
  · rw [if_pos hsmall, List.cons_append, hone, sized_ofNatBE head (by simpa using hsmall)]
  · by_cases hmiddle : n < 1 <<< 16
    · rw [if_neg hsmall, if_pos hmiddle, List.cons_append, htwo,
        sized_ofNatBE head (by simpa using hmiddle)]
    · rw [if_neg hsmall, if_neg hmiddle, List.cons_append, hfour,
        sized_ofNatBE head (by simpa using h)]

/-- **A number of the unsigned family** reads back. -/
theorem read_encodeNat (h : n < 2 ^ 64) :
    read (encodeNat n ++ rest) = some (whole (.nat n), rest) := by
  unfold encodeNat
  by_cases hsmall : n < 1 <<< 7
  · have hoctet : (UInt8.ofNat n).toNat = n := UInt8.toNat_ofNat_of_lt' (by show _ < 256; omega)
    rw [if_pos hsmall, List.singleton_append, read]
    rw [hoctet, if_pos (by omega)]
  · rw [if_neg hsmall]
    by_cases hmiddle : n < 1 <<< 32
    · rw [if_pos hmiddle]
      exact read_sizeHeader (fun n => whole (.nat n)) hmiddle (fun _ => rfl) (fun _ => rfl) fun _ =>
        rfl
    · rw [if_neg hmiddle]
      exact sized_ofNatBE (fun n => whole (.nat n)) h

/-- **A signed number of some octets** is read off the front. -/
theorem readInt_signedBE {width : Nat} {v : Int} (hwidth : 0 < width)
    (hlow : -(256 ^ width / 2 : Nat) ≤ v) (hhigh : v < (256 ^ width / 2 : Nat)) :
    readInt width (signedBE width v ++ rest) = some (v, rest) := by
  have hpos : 0 < 256 ^ width := Nat.pow_pos (by decide)
  have heven : 256 ^ width = 2 * (256 ^ width / 2) := by
    obtain ⟨k, rfl⟩ := Nat.exists_eq_succ_of_ne_zero (Nat.pos_iff_ne_zero.mp hwidth)
    rw [Nat.pow_succ]
    omega
  have hnonneg : 0 ≤ v % (256 ^ width : Nat) := Int.emod_nonneg _ (by omega)
  have hlt : v % (256 ^ width : Nat) < (256 ^ width : Nat) := Int.emod_lt_of_pos _ (by omega)
  have hfits : (v % (256 ^ width : Nat)).toNat < 256 ^ width := by omega
  have hback : Int.bmod (v % (256 ^ width : Nat)).toNat (256 ^ width) = v := by
    rw [Int.toNat_of_nonneg hnonneg, Int.emod_bmod]
    exact Int.bmod_eq_of_le_mul_two (by omega) (by omega)
  rw [readInt, signedBE, Bytes.one_shiftLeft_octets, readNat_ofNatBE hfits]
  show some (Int.bmod _ _, rest) = _
  rw [hback]

/-- A number with a sign is read back from its octets. -/
theorem intOf_signedBE {width : Nat} {v : Int} (hwidth : 0 < width)
    (hlow : -(256 ^ width / 2 : Nat) ≤ v) (hhigh : v < (256 ^ width / 2 : Nat)) :
    intOf width (signedBE width v ++ rest) = some (whole (.int v), rest) := by
  rw [intOf, readInt_signedBE hwidth hlow hhigh]
  rfl

/-- **A number of the signed family** reads back. -/
theorem read_encodeInt {v : Int} (hlow : -2 ^ 63 ≤ v) (hhigh : v < 2 ^ 63) :
    read (encodeInt v ++ rest) = some (whole (.int v), rest) := by
  unfold encodeInt
  by_cases hfix : -32 ≤ v ∧ v < 0
  · -- the octet holds the number itself
    have hoctet : signedBE 1 v = [UInt8.ofNat (v + 256).toNat] := by
      have hmod : v % (256 : Nat) = v + 256 := by omega
      rw [signedBE, Bytes.one_shiftLeft_octets, Nat.pow_one, hmod]
      rfl
    have htoNat : (UInt8.ofNat (v + 256).toNat).toNat = (v + 256).toNat :=
      UInt8.toNat_ofNat_of_lt' (by show _ < 256; omega)
    rw [if_pos hfix, hoctet, List.singleton_append, read]
    rw [htoNat, if_neg (by omega), if_neg (by omega), if_neg (by omega), if_neg (by omega),
      if_neg (by omega)]
    have hback : (((v + 256).toNat : Nat) : Int) - 256 = v := by omega
    rw [hback]
  · rw [if_neg hfix]
    by_cases hone : -128 ≤ v ∧ v < 128
    · rw [if_pos hone]
      exact intOf_signedBE (by decide) (by omega) (by omega)
    · rw [if_neg hone]
      by_cases htwo : -0x8000 ≤ v ∧ v < 0x8000
      · rw [if_pos htwo]
        exact intOf_signedBE (by decide) (by omega) (by omega)
      · rw [if_neg htwo]
        by_cases hfour : -0x80000000 ≤ v ∧ v < 0x80000000
        · rw [if_pos hfour]
          exact intOf_signedBE (by decide) (by omega) (by omega)
        · rw [if_neg hfour]
          exact intOf_signedBE (by decide) (by omega) (by omega)

/-- **A count**, which a short one has in its first octet. -/
theorem read_countHeader (head : Nat → Head) {short two four : UInt8} (h : n < 2 ^ 32)
    (hshort : ∀ k < 16, ∀ bs, read ((short + UInt8.ofNat k) :: bs) = some (head k, bs))
    (htwo : ∀ bs, read (two :: bs) = sized head 2 bs)
    (hfour : ∀ bs, read (four :: bs) = sized head 4 bs) :
    read (countHeader short two four n ++ rest) = some (head n, rest) := by
  unfold countHeader
  by_cases hsmall : n < 1 <<< 4
  · rw [if_pos hsmall]
    exact hshort n hsmall rest
  · rw [if_neg hsmall]
    by_cases hmiddle : n < 1 <<< 16
    · rw [if_pos hmiddle, List.cons_append, htwo, sized_ofNatBE head (by simpa using hmiddle)]
    · rw [if_neg hmiddle, List.cons_append, hfour, sized_ofNatBE head (by simpa using h)]

/-- A first octet that holds a number behind some bits of its own. -/
theorem toNat_add_ofNat {base : UInt8} {k : Nat} (h : base.toNat + k < 256) :
    (base + UInt8.ofNat k).toNat = base.toNat + k := by
  rw [UInt8.toNat_add, UInt8.toNat_ofNat', Nat.mod_eq_of_lt (a := k) (by omega), Nat.mod_eq_of_lt h]

/-- **The beginning of a text** announces it. -/
theorem read_textHeader (h : n < 2 ^ 32) : read (textHeader n ++ rest) = some (text n, rest) := by
  unfold textHeader
  by_cases hsmall : n < 1 <<< 5
  · have hoctet : ((0xa0 : UInt8) + UInt8.ofNat n).toNat = 0xa0 + n := toNat_add_ofNat (by
      show 160 + n < 256
      omega)
    rw [if_pos hsmall, List.singleton_append, read, hoctet, if_neg (by omega), if_neg (by omega),
      if_neg (by omega), if_pos (by omega), Nat.add_sub_cancel_left]
  · rw [if_neg hsmall]
    exact read_sizeHeader text h (fun _ => rfl) (fun _ => rfl) fun _ => rfl

/-- **The beginning of an array** announces it. -/
theorem read_arrayHeader (h : n < 2 ^ 32) :
    read (arrayHeader n ++ rest) = some (array n, rest) := by
  refine read_countHeader array h ?_ (fun _ => rfl) fun _ => rfl
  intro k hk bs
  have hoctet : ((0x90 : UInt8) + UInt8.ofNat k).toNat = 0x90 + k := toNat_add_ofNat (by
    show 144 + k < 256
    omega)
  rw [read, hoctet, if_neg (by omega), if_neg (by omega), if_pos (by omega),
    Nat.add_sub_cancel_left]

/-- **The beginning of a map** announces it. -/
theorem read_mapHeader (h : n < 2 ^ 32) : read (mapHeader n ++ rest) = some (map n, rest) := by
  refine read_countHeader map h ?_ (fun _ => rfl) fun _ => rfl
  intro k hk bs
  have hoctet : ((0x80 : UInt8) + UInt8.ofNat k).toNat = 0x80 + k := toNat_add_ofNat (by
    show 128 + k < 256
    omega)
  rw [read, hoctet, if_neg (by omega), if_pos (by omega), Nat.add_sub_cancel_left]

/-- **The beginning of an extension** announces it. -/
theorem read_extensionHeader (h : n < 2 ^ 32) :
    read (extensionHeader n ++ rest) = some (extension n, rest) := by
  unfold extensionHeader
  split
  · rfl
  · rfl
  · rfl
  · rfl
  · rfl
  · exact read_sizeHeader extension h (fun _ => rfl) (fun _ => rfl) fun _ => rfl

end Head

namespace Value

/-! ## (2) Values -/

/-- **Values that fit**: their numbers and sizes are no larger than the widest form can hold, and
arrays and maps are nested no deeper than `depth`. -/
inductive Sized : Nat → Value → Prop
  | nil {depth : Nat} : Sized depth nil
  | bool {depth : Nat} (b : Bool) : Sized depth (bool b)
  | nat {depth n : Nat} (h : n < 2 ^ 64) : Sized depth (nat n)
  | int {depth : Nat} {v : Int} (hlow : -2 ^ 63 ≤ v) (hhigh : v < 2 ^ 63) : Sized depth (int v)
  | single {depth : Nat} (bits : UInt32) : Sized depth (single bits)
  | double {depth : Nat} (bits : UInt64) : Sized depth (double bits)
  | text {depth : Nat} {bs : Bytes} (h : bs.length < 2 ^ 32) : Sized depth (text bs)
  | binary {depth : Nat} {bs : Bytes} (h : bs.length < 2 ^ 32) : Sized depth (binary bs)
  | extension {depth : Nat} (tag : UInt8) {bs : Bytes} (h : bs.length < 2 ^ 32) :
      Sized depth (extension tag bs)
  | array {depth : Nat} {items : List Value} (h : items.length < 2 ^ 32)
      (hitems : ∀ v ∈ items, Sized depth v) : Sized (depth + 1) (array items)
  | map {depth : Nat} {entries : List (Value × Value)} (h : entries.length < 2 ^ 32)
      (hkeys : ∀ e ∈ entries, Sized depth e.1) (hvalues : ∀ e ∈ entries, Sized depth e.2) :
      Sized (depth + 1) (map entries)

/-- A value that fits at some depth fits at a greater one. -/
theorem Sized.mono {depth depth' : Nat} {v : Value} (h : v.Sized depth) (hle : depth ≤ depth') :
    v.Sized depth' := by
  induction h generalizing depth' with
  | nil => exact .nil
  | bool b => exact .bool b
  | nat h => exact .nat h
  | int hlow hhigh => exact .int hlow hhigh
  | single bits => exact .single bits
  | double bits => exact .double bits
  | text h => exact .text h
  | binary h => exact .binary h
  | extension tag h => exact .extension tag h
  | array h hitems ih =>
      cases depth' with
      | zero => cases hle
      | succ depth' => exact .array h fun v hv => ih v hv (Nat.le_of_succ_le_succ hle)
  | map h hkeys hvalues ihKeys ihValues =>
      cases depth' with
      | zero => cases hle
      | succ depth' =>
          refine .map h ?_ ?_
          · intro e he
            exact ihKeys e he (Nat.le_of_succ_le_succ hle)
          · intro e he
            exact ihValues e he (Nat.le_of_succ_le_succ hle)

/-- What reads the values inside a value. -/
def inside : Nat → Option (Bytes → Option (Value × Bytes))
  | 0 => none
  | depth + 1 => some (read depth)

/-- **What a beginning announces** is read behind it. -/
theorem read_of_head {head : Head} {bs : Bytes} (h : Head.read bs = some (head, rest))
    (depth : Nat) :
    read depth bs = readBody (inside depth) head rest := by
  cases depth with
  | zero =>
      rw [read, h]
      rfl
  | succ depth =>
      rw [read, h]
      rfl

/-- **Items read back** one after another, if each does. -/
theorem readMany_encodeAll {depth : Nat} {items : List Value}
    (h : ∀ v ∈ items, ∀ rest, read depth (v.encode ++ rest) = some (v, rest)) (rest : Bytes) :
    readMany (read depth) items.length (encodeAll items ++ rest) = some (items, rest) := by
  induction items with
  | nil => rfl
  | cons v items ih =>
      rw [List.length_cons, readMany, encodeAll, List.append_assoc, h v List.mem_cons_self]
      show (readMany (read depth) items.length (encodeAll items ++ rest) >>= _) = _
      rw [ih fun v hv => h v (List.mem_cons_of_mem _ hv)]
      rfl

/-- **Entries read back** one after another, if their keys and values do. -/
theorem readMany_encodeEntries {depth : Nat} {entries : List (Value × Value)}
    (hkeys : ∀ e ∈ entries, ∀ rest, read depth (e.1.encode ++ rest) = some (e.1, rest))
    (hvalues : ∀ e ∈ entries, ∀ rest, read depth (e.2.encode ++ rest) = some (e.2, rest))
    (rest : Bytes) :
    readMany (readPair (read depth)) entries.length (encodeEntries entries ++ rest) =
      some (entries, rest) := by
  induction entries with
  | nil => rfl
  | cons e entries ih =>
      obtain ⟨k, v⟩ := e
      have hpair : readPair (read depth)
        (k.encode ++ (v.encode ++ (encodeEntries entries ++ rest))) =
          some ((k, v), encodeEntries entries ++ rest) := by
        rw [readPair, hkeys (k, v) List.mem_cons_self]
        show (read depth (v.encode ++ _) >>= _) = _
        rw [hvalues (k, v) List.mem_cons_self]
        rfl
      rw [List.length_cons, readMany, encodeEntries, List.append_assoc, List.append_assoc, hpair]
      show (readMany (readPair (read depth)) entries.length (encodeEntries entries ++ rest) >>= _) =
        _
      rw [ih (fun e he => hkeys e (List.mem_cons_of_mem _ he))
        fun e he => hvalues e (List.mem_cons_of_mem _ he)]
      rfl

/-- A text of its own length is split off. -/
theorem take?_self (bs rest : Bytes) (build : Bytes → Value) :
    ((Bytes.take? (bs ++ rest) bs.length).map fun (s, rest) => (build s, rest)) =
      some (build bs, rest) := by
  rw [Bytes.take?_append]
  rfl

/-- **A value that fits reads back**, whatever follows it. -/
theorem read_encode {depth : Nat} {v : Value} (h : v.Sized depth) (rest : Bytes) :
    read depth (v.encode ++ rest) = some (v, rest) := by
  -- the head tells the form, and the body follows it; items are read back one level below
  induction h generalizing rest with
  | @nil depth =>
      have hhead : Head.read (nil.encode ++ rest) = some (.whole nil, rest) := rfl
      rw [read_of_head hhead]
      rfl
  | @bool depth b =>
      have hhead : Head.read ((bool b).encode ++ rest) = some (.whole (bool b), rest) := by
        cases b <;> rfl
      rw [read_of_head hhead]
      rfl
  | nat h => exact read_of_head (Head.read_encodeNat h) _
  | int hlow hhigh => exact read_of_head (Head.read_encodeInt hlow hhigh) _
  | single bits =>
      have hhead : Head.read ((single bits).encode ++ rest) =
          some (.whole (single (UInt32.ofNat bits.toNat)), rest) :=
        Head.sized_ofNatBE (fun n => .whole (single (UInt32.ofNat n))) bits.toNat_lt
      rw [read_of_head hhead, UInt32.ofNat_toNat]
      rfl
  | double bits =>
      have hhead : Head.read ((double bits).encode ++ rest) =
          some (.whole (double (UInt64.ofNat bits.toNat)), rest) :=
        Head.sized_ofNatBE (fun n => .whole (double (UInt64.ofNat n))) bits.toNat_lt
      rw [read_of_head hhead, UInt64.ofNat_toNat]
      rfl
  | @text depth bs h =>
      rw [encode, List.append_assoc, read_of_head (Head.read_textHeader h)]
      exact take?_self bs rest text
  | @binary depth bs h =>
      have hhead : Head.read (sizeHeader 0xc4 0xc5 0xc6 bs.length ++ (bs ++ rest)) =
          some (.binary bs.length, bs ++ rest) :=
        Head.read_sizeHeader Head.binary h (fun _ => rfl) (fun _ => rfl) fun _ => rfl
      rw [encode, List.append_assoc, read_of_head hhead]
      exact take?_self bs rest binary
  | @extension depth tag bs h =>
      rw [encode, List.append_assoc, read_of_head (Head.read_extensionHeader h)]
      exact take?_self bs rest (extension tag)
  | @array depth items h hitems ih =>
      rw [encode, List.append_assoc, read_of_head (Head.read_arrayHeader h)]
      show (readMany (read depth) items.length (encodeAll items ++ rest) >>= _) = _
      rw [readMany_encodeAll ih]
      rfl
  | @map depth entries h hkeys hvalues ihKeys ihValues =>
      rw [encode, List.append_assoc, read_of_head (Head.read_mapHeader h)]
      show (readMany (readPair (read depth)) entries.length (encodeEntries entries ++ rest) >>= _) =
        _
      rw [readMany_encodeEntries ihKeys ihValues]
      rfl

/-- **A message reads back.** -/
theorem decode?_encode {v : Value} (h : v.Sized maxDepth) : decode? v.encode = some v := by
  have hread := read_encode h []
  rw [List.append_nil] at hread
  rw [decode?, hread]
  rfl

end Value

end ColumnFile.MessagePack
