import ColumnFile.Datum.Stored
import ColumnFile.Statistics.Range

/-! # Ranges cover what they were widened by

* **`ValueRange.Family`** — the families of values that have an order; **`Datum.InFamily`** — the
  data that a column stores are all of one (`inFamily_of_stored`).
* **`ValueRange.mayContain_of`** — the range of a datum may contain it.
* **`ValueRange.mayContain_widen`** — ranges of one family are widened to a range that may contain
  what either of them may.
* **`ValueRange.widen_assoc`** — which of several ranges of one family are joined first does not
  matter. -/

namespace ColumnFile

namespace ValueRange

/-! ## (1) Families -/

/-- A **family** of values that have an order. -/
inductive Family
  /-- Integers and Booleans. -/
  | ints
  /-- Numbers with a fraction. -/
  | floats
  /-- Byte strings. -/
  | strings
deriving DecidableEq

/-- The family of the values in a range. -/
def family : ValueRange → Family
  | ints .. => .ints
  | floats .. => .floats
  | strings .. => .strings

end ValueRange

/-- The family of the values of a kind. -/
def Kind.family : Kind → ValueRange.Family
  | .boolean | .byte | .short | .int | .long => .ints
  | .float | .double => .floats
  | .string | .bytes => .strings

/-- **A datum of a family** has a range of the family, if it has one. -/
def Datum.InFamily (d : Datum) (family : ValueRange.Family) : Prop :=
  ∀ r, ValueRange.of d = some r → r.family = family

namespace ValueRange

variable {d : Datum} {r r' : ValueRange}

/-- A null datum has no range. -/
theorem of_null (h : d.isNull = true) : of d = none := by
  cases d <;> first | rfl | cases h

/-- Every other datum has one. -/
theorem exists_of (h : d.isNull = false) : ∃ r, of d = some r := by
  cases d <;> first | exact ⟨_, rfl⟩ | cases h

/-- **A datum that a column stores** is of the family of the kind. -/
theorem inFamily_of_stored {kind : Kind} {bs : Bytes} (h : d.stored kind = .ok bs) :
    d.InFamily kind.family := by
  intro r hr
  cases kind <;> cases d <;> cases h <;> cases hr <;> rfl

/-! ## (2) Data in ranges -/

/-- **The range of a datum** may contain it. -/
theorem mayContain_of (h : of d = some r) : r.mayContain d = true := by
  have hpoint : (∃ v, r = ints v v) ∨ (∃ v, r = floats v v) ∨ ∃ v, r = strings v v := by
    cases d <;> cases h <;> simp
  rcases hpoint with ⟨v, rfl⟩ | ⟨v, rfl⟩ | ⟨v, rfl⟩
  · simp [mayContain, h]
  · simp [mayContain, h]
  · simp [mayContain, h]

/-- Widening leaves the family of a range alone. -/
theorem family_widen (r r' : ValueRange) : (r.widen r').family = r.family := by
  cases r <;> cases r' <;> rfl

/-- **The ends of a widened range**: what lies between the ends of either range lies between
them. -/
theorem between_widened {α : Type} (lt le : α → α → Prop) [DecidableRel lt]
    (trans : ∀ {a b c}, le a b → le b c → le a c) (le_of_lt : ∀ {a b}, lt a b → le a b)
    (le_of_not_lt : ∀ {a b}, ¬ lt a b → le b a) {min max low high v : α}
    (h : (le min v ∧ le v max) ∨ (le low v ∧ le v high)) :
    le (if lt low min then low else min) v ∧ le v (if lt high max then max else high) := by
  constructor
  · by_cases hlt : lt low min
    · rw [if_pos hlt]
      rcases h with ⟨hle, -⟩ | ⟨hle, -⟩
      · exact trans (le_of_lt hlt) hle
      · exact hle
    · rw [if_neg hlt]
      rcases h with ⟨hle, -⟩ | ⟨hle, -⟩
      · exact hle
      · exact trans (le_of_not_lt hlt) hle
  · by_cases hlt : lt high max
    · rw [if_pos hlt]
      rcases h with ⟨-, hle⟩ | ⟨-, hle⟩
      · exact hle
      · exact trans hle (le_of_lt hlt)
    · rw [if_neg hlt]
      rcases h with ⟨-, hle⟩ | ⟨-, hle⟩
      · exact trans hle (le_of_not_lt hlt)
      · exact hle

/-- **A widened range** may contain what either of the ranges of its family may. -/
theorem mayContain_widen (hfamily : r.family = r'.family)
    (h : r.mayContain d = true ∨ r'.mayContain d = true) : (r.widen r').mayContain d = true := by
  -- ranges of one family are compared by its order; what is of another family is never ruled out
  cases r with
  | ints min max =>
      cases r' with
      | ints low high =>
          rw [widen]
          unfold mayContain at h ⊢
          cases hof : of d with
          | none => rfl
          | some point =>
              cases point with
              | ints v w =>
                  simp only [hof, decide_eq_true_eq] at h ⊢
                  exact between_widened (· < ·) (· ≤ ·) Int64.le_trans Int64.le_of_lt
                    Int64.not_lt.mp h
              | floats v w => rfl
              | strings v w => rfl
      | floats low high => cases hfamily
      | strings low high => cases hfamily
  | floats min max =>
      cases r' with
      | floats low high =>
          rw [widen]
          unfold mayContain at h ⊢
          cases hof : of d with
          | none => rfl
          | some point =>
              cases point with
              | floats v w =>
                  simp only [hof, decide_eq_true_eq] at h ⊢
                  exact between_widened (fun a b => Binary.rank a < Binary.rank b)
                    (fun a b => Binary.rank a ≤ Binary.rank b) Int.le_trans Int.le_of_lt
                    Int.not_lt.mp h
              | ints v w => rfl
              | strings v w => rfl
      | ints low high => cases hfamily
      | strings low high => cases hfamily
  | strings min max =>
      cases r' with
      | strings low high =>
          rw [widen]
          unfold mayContain at h ⊢
          cases hof : of d with
          | none => rfl
          | some point =>
              cases point with
              | strings v w =>
                  simp only [hof, decide_eq_true_eq] at h ⊢
                  exact between_widened (· < ·) (· ≤ ·) List.le_trans List.le_of_lt List.not_lt.mp h
              | ints v w => rfl
              | floats v w => rfl
      | ints low high => cases hfamily
      | floats low high => cases hfamily

/-! ## (3) Several ranges -/

/-- **Choices in turn**: where a later value replaces an earlier one if it is related to it, it does
not matter which choices are made first, provided that being related and being unrelated both are
transitive. With `<` this is the first of the least values, with `¬ <` the last of the greatest
ones. -/
theorem chosen_assoc {α : Type} (r : α → α → Prop) [DecidableRel r]
    (trans : ∀ {a b c}, r a b → r b c → r a c)
    (trans_not : ∀ {a b c}, ¬ r a b → ¬ r b c → ¬ r a c) (a b c : α) :
    (if r c (if r b a then b else a) then c else if r b a then b else a) =
      if r (if r c b then c else b) a then (if r c b then c else b) else a := by
  by_cases hba : r b a
  · by_cases hcb : r c b
    · rw [if_pos hba, if_pos hcb, if_pos (trans hcb hba)]
    · rw [if_pos hba, if_neg hcb, if_pos hba]
  · by_cases hcb : r c b
    · rw [if_neg hba, if_pos hcb]
    · rw [if_neg hba, if_neg hcb, if_neg hba, if_neg (trans_not hcb hba)]

/-- **The ends of three ranges**: the first of the least values and the last of the greatest
ones. -/
theorem ends_assoc {α : Type} (lt : α → α → Prop) [DecidableRel lt]
    (trans : ∀ {a b c}, lt a b → lt b c → lt a c)
    (trans_not : ∀ {a b c}, ¬ lt a b → ¬ lt b c → ¬ lt a c) (a b c : α) :
    (if lt c (if lt b a then b else a) then c else if lt b a then b else a) =
        (if lt (if lt c b then c else b) a then (if lt c b then c else b) else a) ∧
      (if lt c (if lt b a then a else b) then (if lt b a then a else b) else c) =
        if lt (if lt c b then b else c) a then a else if lt c b then b else c := by
  refine ⟨chosen_assoc lt trans trans_not a b c, ?_⟩
  have hlast := chosen_assoc (fun x y => ¬ lt x y) trans_not
    (fun hxy hyz hxz => hxz (trans (Classical.not_not.mp hxy) (Classical.not_not.mp hyz))) a b c
  simpa only [ite_not] using hlast

/-- **Three ranges of one family**: which two of them are joined first does not matter. -/
theorem widen_assoc {a b c : ValueRange} (hab : a.family = b.family) (hbc : b.family = c.family) :
    (a.widen b).widen c = a.widen (b.widen c) := by
  -- the ends are chosen by the order of the family, which is associative
  cases a with
  | ints min max =>
      cases b with
      | ints min' max' =>
          cases c with
          | ints min'' max'' =>
              have trans_not : ∀ {x y z : Int64}, ¬ x < y → ¬ y < z → ¬ x < z := fun hxy hyz =>
                Int64.not_lt.mpr (Int64.le_trans (Int64.not_lt.mp hyz) (Int64.not_lt.mp hxy))
              simp only [widen, ints.injEq]
              exact ⟨(ends_assoc (· < ·) Int64.lt_trans trans_not min min' min'').1,
                (ends_assoc (· < ·) Int64.lt_trans trans_not max max' max'').2⟩
          | floats min'' max'' => cases hbc
          | strings min'' max'' => cases hbc
      | floats min' max' => cases hab
      | strings min' max' => cases hab
  | floats min max =>
      cases b with
      | floats min' max' =>
          cases c with
          | floats min'' max'' =>
              have trans : ∀ {x y z : UInt64}, Binary.rank x < Binary.rank y →
                  Binary.rank y < Binary.rank z → Binary.rank x < Binary.rank z := Int.lt_trans
              have trans_not : ∀ {x y z : UInt64}, ¬ Binary.rank x < Binary.rank y →
                  ¬ Binary.rank y < Binary.rank z → ¬ Binary.rank x < Binary.rank z :=
                fun hxy hyz => Int.not_lt.mpr (Int.le_trans (Int.not_lt.mp hyz) (Int.not_lt.mp hxy))
              simp only [widen, floats.injEq]
              exact ⟨(ends_assoc (fun x y => Binary.rank x < Binary.rank y) trans
                trans_not _ _ _).1,
                (ends_assoc (fun x y => Binary.rank x < Binary.rank y) trans trans_not _ _ _).2⟩
          | ints min'' max'' => cases hbc
          | strings min'' max'' => cases hbc
      | ints min' max' => cases hab
      | strings min' max' => cases hab
  | strings min max =>
      cases b with
      | strings min' max' =>
          cases c with
          | strings min'' max'' =>
              have trans_not : ∀ {x y z : Bytes}, ¬ x < y → ¬ y < z → ¬ x < z := fun hxy hyz =>
                List.not_lt.mpr (List.le_trans (List.not_lt.mp hyz) (List.not_lt.mp hxy))
              simp only [widen, strings.injEq]
              exact ⟨(ends_assoc (· < ·) List.lt_trans trans_not min min' min'').1,
                (ends_assoc (· < ·) List.lt_trans trans_not max max' max'').2⟩
          | ints min'' max'' => cases hbc
          | floats min'' max'' => cases hbc
      | ints min' max' => cases hab
      | floats min' max' => cases hab

end ValueRange

end ColumnFile
