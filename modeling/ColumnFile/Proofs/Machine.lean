import ColumnFile.Machine
import ColumnFile.Proofs.Fault

/-! # Operands within their range

What the operations of a machine give when no operand is out of range.

* **`Machine.add_eq`**, **`Machine.shiftLeft_eq`**, **`Machine.rem_eq`** and the others — one for
  each operation; `add_overflow`, `mul_overflow` and `allocate_capacity` are what sums, products and
  memory give out of range.
* **`Machine.Guards`** — a computation on a machine, and the same one on numbers, as long as
  something fits. -/

namespace ColumnFile

namespace Machine

variable {a b n k : Nat}

/-- The integers of a word. -/
theorem size_eq : UInt64.size = 2 ^ 64 := rfl

/-- A sum that is a word. -/
theorem add_eq (h : a + b < 2 ^ 64) : add a b = .ok (a + b) := if_pos h

/-- A sum past the width of a word. -/
theorem add_overflow (h : UInt64.size ≤ a + b) : add a b = .error (.trap .overflow) :=
  if_neg (Nat.not_lt.mpr h)

/-- A difference that is not below zero. -/
theorem sub_eq (h : b ≤ a) : sub a b = .ok (a - b) := if_pos h

/-- A product that is a word. -/
theorem mul_eq (h : a * b < 2 ^ 64) : mul a b = .ok (a * b) := if_pos h

/-- A product past the width of a word. -/
theorem mul_overflow (h : UInt64.size ≤ a * b) : mul a b = .error (.trap .overflow) :=
  if_neg (Nat.not_lt.mpr h)

/-- A shift to the right by less than the width of a word. -/
theorem shiftRight_eq (h : n < 64) : shiftRight a n = .ok (a >>> n) := if_pos h

/-- A word with enough zeros in front is shifted without loss. -/
theorem shiftLeft_eq (ha : a < 2 ^ k) (hk : k + n ≤ 64) (hn : n < 64) :
    shiftLeft a n = .ok (a <<< n) := by
  have hlt : a <<< n < 2 ^ 64 := by
    rw [Nat.shiftLeft_eq]
    calc a * 2 ^ n < 2 ^ k * 2 ^ n := Nat.mul_lt_mul_of_pos_right ha (Nat.two_pow_pos n)
      _ = 2 ^ (k + n) := (Nat.pow_add 2 k n).symm
      _ ≤ 2 ^ 64 := Nat.pow_le_pow_right (by decide) hk
  rw [shiftLeft, if_pos hn, size_eq, Nat.mod_eq_of_lt hlt]

/-- The mask of fewer bits than a word has. -/
theorem lowMask_eq (h : n < 64) : lowMask n = .ok (2 ^ n - 1) := by
  rw [lowMask, if_neg (Nat.not_le.mpr h), shiftLeft_eq (k := 1) (by decide) (by omega) h, ok_bind,
    Nat.one_shiftLeft]
  exact sub_eq (Nat.two_pow_pos n)

/-- What a division by a divisor that is not zero leaves. -/
theorem rem_eq (h : b ≠ 0) : rem a b = .ok (a % b) := if_neg h

/-- Two places in order, and inside. -/
theorem within_eq {size start stop : Nat} (hle : start ≤ stop) (hstop : stop ≤ size) :
    within size start stop = .ok () := if_pos ⟨hle, hstop⟩

/-- Memory up to the limit is there. -/
theorem allocate_eq (h : n ≤ limit) : allocate n = .ok () := if_pos h

/-- Memory past the limit is not. -/
theorem allocate_capacity (h : limit < n) : allocate n = .error (.trap .capacity) :=
  if_neg (Nat.not_le.mpr h)

/-- An element that is there. -/
theorem element_eq {α : Type} {xs : Array α} {i : Nat} (h : i < xs.size) :
    element xs i = .ok xs[i] := by
  rw [element, Array.getElem?_eq_getElem h]

/-! ## Computations that stop -/

section Guards

variable {α β : Type} {fits fits' : Prop} {x : Except Stop α} {y : Except Fault α}

/-- **A computation on a machine guards** one on numbers: it does the same as long as something
`fits`; if that does not fit, it has no result, as something else is at fault or the program
stops. -/
structure Guards (fits : Prop) (x : Except Stop α) (y : Except Fault α) : Prop where
  agrees : fits → x = y.mapError .fault
  stops : ¬ fits → (∃ t, x = .error (.trap t)) ∨ ∃ e, x = .error (.fault e)

/-- A fault of what is read comes first. -/
theorem guards_error (e : Fault) : Guards fits (.error (.fault e) : Except Stop α) (.error e) :=
  ⟨fun _ => rfl, fun _ => .inr ⟨e, rfl⟩⟩

/-- **Two computations that guard**, one after the other. -/
theorem Guards.bind {f : α → Except Stop β} {g : α → Except Fault β} (h : Guards fits x y)
    (hf : ∀ a, y = .ok a → Guards fits' (f a) (g a)) :
    Guards (fits ∧ fits') (x >>= f) (y >>= g) := by
  constructor
  · rintro ⟨hfits, hfits'⟩
    rw [h.agrees hfits]
    cases y with
    | error e => rfl
    | ok a => exact (hf a rfl).agrees hfits'
  · intro hnot
    by_cases hfits : fits
    · rw [h.agrees hfits]
      cases y with
      | error e => exact .inr ⟨e, rfl⟩
      | ok a => exact (hf a rfl).stops fun hfits' => hnot ⟨hfits, hfits'⟩
    · rcases h.stops hfits with ⟨t, hx⟩ | ⟨e, hx⟩
      · exact .inl ⟨t, by rw [hx]; rfl⟩
      · exact .inr ⟨e, by rw [hx]; rfl⟩

/-- What holds of a result may be said of every result. -/
theorem forall_ok_iff {P : α → Prop} {a : α} (h : y = .ok a) : P a ↔ ∀ b, y = .ok b → P b := by
  constructor
  · rintro hP b hb
    exact Except.ok.inj (h.symm.trans hb) ▸ hP
  · exact fun hP => hP a h

/-- What has to fit may be said in other words. -/
theorem Guards.congr (h : Guards fits x y) (hiff : fits ↔ fits') : Guards fits' x y :=
  ⟨fun hfits => h.agrees (hiff.mpr hfits), fun hnot => h.stops fun hfits => hnot (hiff.mp hfits)⟩

/-- A computation on numbers guards itself. -/
theorem guards_self (y : Except Fault α) : Guards True (y.mapError .fault) y :=
  ⟨fun _ => rfl, fun hnot => absurd trivial hnot⟩

/-- A step on numbers before a computation that guards. -/
theorem guards_bind {y : Except Fault α} {f : α → Except Stop β} {g : α → Except Fault β}
    (h : ∀ a, y = .ok a → Guards fits (f a) (g a)) :
    Guards fits (y.mapError .fault >>= f) (y >>= g) :=
  ((guards_self y).bind h).congr (and_iff_right trivial)

/-- What is made of the result does not matter. -/
theorem Guards.map (h : Guards fits x y) (f : α → β) :
    Guards fits (x >>= fun a => pure (f a)) (y >>= fun a => pure (f a)) :=
  (h.bind fun a _ => guards_self (.ok (f a))).congr (and_iff_left trivial)

/-- A product, and a computation that goes on with it. -/
theorem guards_mul (a b : Nat) {f : Nat → Except Stop α} (h : Guards fits (f (a * b)) y) :
    Guards (a * b < UInt64.size ∧ fits) (mul a b >>= f) y := by
  by_cases hproduct : a * b < UInt64.size
  · rw [mul_eq hproduct, ok_bind]
    exact h.congr (and_iff_right hproduct).symm
  · refine ⟨fun hfits => absurd hfits.1 hproduct, fun _ => .inl ⟨.overflow, ?_⟩⟩
    rw [mul_overflow (Nat.not_lt.mp hproduct)]
    rfl

/-- A sum, and a computation that goes on with it. -/
theorem guards_add (a b : Nat) {f : Nat → Except Stop α} (h : Guards fits (f (a + b)) y) :
    Guards (a + b < UInt64.size ∧ fits) (add a b >>= f) y := by
  by_cases hsum : a + b < UInt64.size
  · rw [add_eq hsum, ok_bind]
    exact h.congr (and_iff_right hsum).symm
  · refine ⟨fun hfits => absurd hfits.1 hsum, fun _ => .inl ⟨.overflow, ?_⟩⟩
    rw [add_overflow (Nat.not_lt.mp hsum)]
    rfl

/-- Memory that is asked for before a computation. -/
theorem guards_allocate (octets : Nat) (h : Guards fits x y) :
    Guards (octets ≤ limit ∧ fits) (allocate octets >>= fun _ => x) y := by
  by_cases hmemory : octets ≤ limit
  · rw [allocate_eq hmemory, ok_bind]
    exact h.congr (and_iff_right hmemory).symm
  · refine ⟨fun hfits => absurd hfits.1 hmemory, fun _ => .inl ⟨.capacity, ?_⟩⟩
    rw [allocate_capacity (Nat.not_le.mp hmemory)]
    rfl

end Guards

end Machine

end ColumnFile
