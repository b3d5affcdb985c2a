import ColumnFile.MessagePack.Shape
import ColumnFile.Proofs.MessagePack.Value

/-! # Shapes read back

What a shape writes fits into the octets of a message, and the shape reads it back.

* **`Shape.Fits`** — a value that a shape writes within its bounds and reads back.
* **`Shape.nat_fits`**, **`Shape.text_fits`**, **`Shape.choice_fits`** — single values.
* **`Shape.list_fits`**, **`Shape.option_fits`** — built ones.
* **`Shape.record_fits`** — records, from their fields. -/

namespace ColumnFile.MessagePack

variable {α : Type}

namespace Shape

/-- **A value fits a shape** at some depth: what is written of it fits into the octets of a message,
and is read back by whoever goes down that deep. -/
structure Fits (s : Shape α) (depth : Nat) (a : α) : Prop where
  sized : (s.write a).Sized depth
  reads : ∀ levels, depth ≤ levels → s.read levels (s.write a) = some a

/-- What fits in few levels fits in more. -/
theorem Fits.mono {s : Shape α} {a : α} {depth depth' : Nat} (h : s.Fits depth a)
    (hle : depth ≤ depth') : s.Fits depth' a :=
  ⟨h.sized.mono hle, fun levels hlevels => h.reads levels (Nat.le_trans hle hlevels)⟩

/-! ## (1) Single values -/

/-- **Numbers** of at most 64 binary digits. -/
theorem nat_fits {width n : Nat} (hwidth : width ≤ 64) (h : n < 2 ^ width) :
    (nat width).Fits 0 n := by
  constructor
  · exact .nat (Nat.lt_of_lt_of_le h (Nat.pow_le_pow_right (by decide) hwidth))
  · intro levels _
    have hrange : (0 : Int) ≤ (n : Int) ∧ (n : Int) < (1 <<< width : Nat) := by
      rw [Nat.one_shiftLeft]
      omega
    show (if (0 : Int) ≤ (n : Int) ∧ (n : Int) < (1 <<< width : Nat) then some (n : Int).toNat
      else none) =
      some n
    rw [if_pos hrange, Int.toNat_natCast]

/-- **Integers** of at most 64 binary digits. -/
theorem int_fits {width : Nat} {v : Int} (hpos : 0 < width) (hwidth : width ≤ 64)
    (hlow : -2 ^ (width - 1) ≤ v) (hhigh : v < 2 ^ (width - 1)) : (int width).Fits 0 v := by
  have hpow : (2 : Int) ^ (width - 1) ≤ 2 ^ 63 := by
    have hnat : 2 ^ (width - 1) ≤ 2 ^ 63 := Nat.pow_le_pow_right (by decide) (by omega)
    exact_mod_cast hnat
  -- the number is read back whichever of the two forms it has
  have hvalue : Value.toInt? (Value.ofInt v) = some v := by
    unfold Value.ofInt
    by_cases hsign : 0 ≤ v
    · rw [if_pos hsign]
      show some ((v.toNat : Nat) : Int) = some v
      rw [Int.toNat_of_nonneg hsign]
    · rw [if_neg hsign]
      rfl
  constructor
  · show (Value.ofInt v).Sized 0
    unfold Value.ofInt
    by_cases hsign : 0 ≤ v
    · rw [if_pos hsign]
      exact .nat (by omega)
    · rw [if_neg hsign]
      exact .int (by omega) (by omega)
  · intro levels _
    have hbound : ((1 <<< (width - 1) : Nat) : Int) = 2 ^ (width - 1) := by
      rw [Nat.one_shiftLeft]
      exact_mod_cast rfl
    show (Value.toInt? (Value.ofInt v) >>= fun n =>
      if -(1 <<< (width - 1) : Nat) ≤ n ∧ n < (1 <<< (width - 1) : Nat) then some n
      else none) = some v
    rw [hvalue, hbound]
    exact if_pos ⟨hlow, hhigh⟩

/-- A shape that goes through another one. -/
theorem Fits.through {β : Type} {s : Shape α} {s' : Shape β} {depth : Nat} {b : β} (out : β → α)
    (back : α → β) (h : s.Fits depth (out b)) (hwrite : s'.write b = s.write (out b))
    (hread : ∀ levels v, s'.read levels v = (s.read levels v).map back) (hback : back (out b) = b) :
    s'.Fits depth b := by
  constructor
  · rw [hwrite]
    exact h.sized
  · intro levels hlevels
    rw [hread, hwrite, h.reads levels hlevels, Option.map_some, hback]

/-- A number of 32 bits fits. -/
theorem int32_fits (v : Int32) : int32.Fits 0 v :=
  (int_fits (by decide) (by decide) v.le_toInt v.toInt_lt).through Int32.toInt Int32.ofInt rfl
    (fun _ _ => rfl) (Int32.ofInt_toInt v)

/-- A number of 64 bits fits. -/
theorem int64_fits (v : Int64) : int64.Fits 0 v :=
  (int_fits (by decide) (by decide) v.le_toInt v.toInt_lt).through Int64.toInt Int64.ofInt rfl
    (fun _ _ => rfl) (Int64.ofInt_toInt v)

/-- A word fits. -/
theorem word64_fits (n : UInt64) : word64.Fits 0 n :=
  (nat_fits (by decide) n.toNat_lt).through UInt64.toNat UInt64.ofNat rfl (fun _ _ => rfl)
    UInt64.ofNat_toNat

/-- An octet fits. -/
theorem octet_fits (n : UInt8) : octet.Fits 0 n :=
  (nat_fits (by decide) n.toNat_lt).through UInt8.toNat UInt8.ofNat rfl (fun _ _ => rfl)
    UInt8.ofNat_toNat

/-- A truth value fits. -/
theorem bool_fits (b : Bool) : bool.Fits 0 b := ⟨.bool b, fun _ _ => rfl⟩

/-- A number of double precision fits. -/
theorem double_fits (bits : UInt64) : double.Fits 0 bits := ⟨.double bits, fun _ _ => rfl⟩

/-- **Texts** of fewer octets than a size can count. -/
theorem text_fits {s : String} (h : (Bytes.ofString s).length < 2 ^ 32) : text.Fits 0 s :=
  ⟨.text h, fun _ _ => Bytes.toString?_ofString s⟩

/-- **Values that stand for themselves by name**, when no other has the name. -/
theorem choice_fits {values : List α} {name : α → String} {a : α} (hmem : a ∈ values)
    (hname : ∀ b ∈ values, name b = name a → b = a)
    (hsize : (Bytes.ofString (name a)).length < 2 ^ 32) :
    (choice values name).Fits 0 a := by
  refine ⟨.text hsize, ?_⟩
  intro levels _
  show values.find? (fun b => Bytes.ofString (name b) == Bytes.ofString (name a)) = some a
  cases hfind : values.find? fun b => Bytes.ofString (name b) == Bytes.ofString (name a) with
  | none =>
      have hnone := List.find?_eq_none.mp hfind a hmem
      exact absurd (beq_self_eq_true _) hnone
  | some b =>
      have hfound := List.find?_some hfind
      have hsame : name b = name a := Bytes.ofString_inj.mp (eq_of_beq hfound)
      rw [hname b (List.mem_of_find?_eq_some hfind) hsame]

/-! ## (2) Built shapes -/

/-- **Lists** of fewer items than a size can count, if the items fit. -/
theorem list_fits {s : Shape α} {depth : Nat} {l : List α} (hlength : l.length < 2 ^ 32)
    (h : ∀ a ∈ l, s.Fits depth a) : (list s).Fits (depth + 1) l := by
  constructor
  · refine .array (by simpa using hlength) ?_
    intro v hv
    obtain ⟨a, ha, rfl⟩ := List.mem_map.mp hv
    exact (h a ha).sized
  · intro levels hlevels
    cases levels with
    | zero => cases hlevels
    | succ levels =>
        show (l.map s.write).mapM (s.read levels) = some l
        clear hlength
        induction l with
        | nil => rfl
        | cons a l ih =>
            rw [List.map_cons, List.mapM_cons,
              (h a List.mem_cons_self).reads levels (Nat.le_of_succ_le_succ hlevels),
              ih fun a ha => h a (List.mem_cons_of_mem _ ha)]
            rfl

/-- **A value that may be absent**, if what is written of it is not mistaken for nothing. -/
theorem option_fits {s : Shape α} {depth : Nat} {o : Option α}
    (h : ∀ a, o = some a → s.Fits depth a) (hnil : ∀ a, s.write a ≠ .nil) :
    (option s).Fits depth o := by
  cases o with
  | none => exact ⟨.nil, fun _ _ => rfl⟩
  | some a =>
      refine ⟨(h a rfl).sized, ?_⟩
      intro levels hlevels
      have hreads := (h a rfl).reads levels hlevels
      have hne := hnil a
      show (option s).read levels (s.write a) = some (some a)
      generalize s.write a = v at hreads hne
      unfold option
      dsimp only
      split
      · exact absurd rfl hne
      · rw [hreads]
        rfl

/-! ## (3) Records -/

/-- A key that is the name of a field stands for it. -/
theorem nameOf_text {names : List String} {name : String} (h : name ∈ names) :
    Fields.nameOf names (.text (Bytes.ofString name)) = some (some name) := by
  unfold Fields.nameOf
  dsimp only
  cases hfind : names.find? fun n => Bytes.ofString n == Bytes.ofString name with
  | none =>
      have hnone := List.find?_eq_none.mp hfind name h
      exact absurd (beq_self_eq_true _) hnone
  | some n =>
      have hfound := List.find?_some hfind
      rw [Bytes.ofString_inj.mp (eq_of_beq hfound)]

/-- **The fields of a written record** are found under their names. -/
theorem collect_fields {names rest : List String} {values : List Value}
    (found : List (String × Value)) (levels : Nat) (hnames : ∀ n ∈ rest, n ∈ names)
    (hrest : rest.Nodup) (hfound : ∀ n ∈ rest, found.lookup n = none)
    (hlength : values.length = rest.length) :
    Fields.collect names levels found
        ((rest.zip values).map fun (name, v) => (.text (Bytes.ofString name), v)) =
      some (found ++ rest.zip values) := by
  induction rest generalizing values found with
  | nil => simp [Fields.collect]
  | cons name rest ih =>
      cases values with
      | nil => cases hlength
      | cons v values =>
          obtain ⟨hfresh, hrest⟩ := List.nodup_cons.mp hrest
          rw [List.zip_cons_cons, List.map_cons, Fields.collect,
            nameOf_text (hnames name List.mem_cons_self)]
          dsimp only
          rw [hfound name List.mem_cons_self, if_neg (by simp),
            ih _ _ hrest _ (by simpa using hlength), List.append_assoc, List.singleton_append]
          · intro n hn
            exact hnames n (List.mem_cons_of_mem _ hn)
          · intro n hn
            have hne : n ≠ name := by
              rintro rfl
              exact hfresh hn
            have hbeq : (n == name) = false := beq_false_of_ne hne
            rw [List.lookup_append, hfound n (List.mem_cons_of_mem _ hn)]
            simp [List.lookup_cons, hbeq]

/-- **A written record** has its fields. -/
theorem ofValue?_ofFields {names : List String} {values : List Value} (levels : Nat)
    (hnames : names.Nodup) (hlength : values.length = names.length) :
    Fields.ofValue? names (levels + 1) (.ofFields (names.zip values)) =
      some { entries := names.zip values, levels, named := true } := by
  have hcollect := collect_fields [] levels (fun n hn => hn) hnames (by simp) hlength
  rw [Value.ofFields, Fields.ofValue?, hcollect]
  rfl

/-- **Records** fit, if what is written of their fields does, and if they are the record of what
they write. -/
theorem record_fits {names : List String} {write : α → List Value}
    {read : Fields → Option α} {a : α} {depth : Nat} (hnames : names.Nodup)
    (hcount : names.length < 2 ^ 32) (hsizes : ∀ n ∈ names, (Bytes.ofString n).length < 2 ^ 32)
    (hlength : (write a).length = names.length) (hsized : ∀ v ∈ write a, v.Sized depth)
    (hread : ∀ levels, depth ≤ levels →
      read { entries := names.zip (write a), levels, named := true } = some a) :
    (record names write read).Fits (depth + 1) a := by
  constructor
  · refine .map ?_ ?_ ?_
    · rw [List.length_map, List.length_zip, hlength, Nat.min_self]
      exact hcount
    · intro e he
      obtain ⟨⟨name, v⟩, hmem, rfl⟩ := List.mem_map.mp he
      exact .text (hsizes name (List.of_mem_zip hmem).1)
    · intro e he
      obtain ⟨⟨name, v⟩, hmem, rfl⟩ := List.mem_map.mp he
      exact hsized v (List.of_mem_zip hmem).2
  · intro levels hlevels
    cases levels with
    | zero => cases hlevels
    | succ levels =>
        show (Fields.ofValue? names (levels + 1) (.ofFields (names.zip (write a))) >>= read) =
          some a
        rw [ofValue?_ofFields levels hnames hlength]
        exact hread levels (Nat.le_of_succ_le_succ hlevels)

end Shape

end ColumnFile.MessagePack
