import ColumnFile.Integer.Width
import Mathlib.Algebra.Ring.Int.Defs
import Mathlib.Algebra.Ring.Nat

/-! # The ladders of widths

What the codecs need of the two ladders: a width rounded up is on its ladder and reaches what was
asked for, a fine width comes back from its code, and the width that covers a list holds every
number of it.

* **`Width.le_fixed`**, **`Width.le_aligned`** — rounding up reaches every width up to 64.
* **`Width.ofCode_code`** — the code of a width on the fine ladder gives the width back.
* **`Width.lt_two_pow_required`**, **`Width.lt_two_pow_covering`** — numbers of 64 bits fit the
  width that was chosen for them. -/

namespace ColumnFile

namespace Width

/-! ## (1) Rounding up -/

/-- A width is rounded up to a rung of its ladder. -/
theorem roundUp_mem {ladder : List Nat} (h : 64 ∈ ladder) (n : Nat) :
    roundUp ladder n ∈ ladder := by
  unfold roundUp
  cases hf : ladder.find? (n ≤ ·) with
  | none => exact h
  | some w => exact List.mem_of_find?_eq_some hf

/-- A width is rounded up. -/
theorem le_roundUp {ladder : List Nat} {n : Nat} (h : n ≤ 64) : n ≤ roundUp ladder n := by
  unfold roundUp
  cases hf : ladder.find? (n ≤ ·) with
  | none => exact h
  | some w => simpa using List.find?_some hf

/-- A fixed width is a rung of its ladder. -/
theorem fixed_mem (n : Nat) : fixed n ∈ fixedLadder := roundUp_mem (by decide) n

/-- So is an aligned one. -/
theorem aligned_mem (n : Nat) : aligned n ∈ alignedLadder := roundUp_mem (by decide) n

/-- A fixed width is enough. -/
theorem le_fixed {n : Nat} (h : n ≤ 64) : n ≤ fixed n := le_roundUp h

/-- So is an aligned one. -/
theorem le_aligned {n : Nat} (h : n ≤ 64) : n ≤ aligned n := le_roundUp h

/-- A rung is between one and a word. -/
theorem bounds_of_mem_fixedLadder {n : Nat} (h : n ∈ fixedLadder) : 0 < n ∧ n ≤ 64 := by
  have hall : ∀ w ∈ fixedLadder, 0 < w ∧ w ≤ 64 := by decide
  exact hall n h

/-- Every coarse width is a fine one. -/
theorem mem_fixedLadder_of_mem_alignedLadder {n : Nat} (h : n ∈ alignedLadder) :
    n ∈ fixedLadder := by
  have hall : ∀ w ∈ alignedLadder, w ∈ fixedLadder := by decide
  exact hall n h

/-- An aligned width is between one and a word. -/
theorem bounds_aligned (n : Nat) : 0 < aligned n ∧ aligned n ≤ 64 :=
  bounds_of_mem_fixedLadder (mem_fixedLadder_of_mem_alignedLadder (aligned_mem n))

/-- So is a fixed one. -/
theorem bounds_fixed (n : Nat) : 0 < fixed n ∧ fixed n ≤ 64 :=
  bounds_of_mem_fixedLadder (fixed_mem n)

/-! ## (2) Codes -/

/-- A code takes up five bits. -/
theorem code_lt (n : Nat) : code n < 32 := by
  have h : fixedLadder.idxOf (fixed n) < fixedLadder.length :=
    List.idxOf_lt_length_of_mem (fixed_mem n)
  exact h

/-- **The code of a width on the fine ladder** gives the width back. -/
theorem ofCode_code {n : Nat} (h : n ∈ fixedLadder) : ofCode (code n) = n := by
  have hall : ∀ w ∈ fixedLadder, ofCode (code w) = w := by decide
  exact hall n h

/-- Every code is that of a width on the fine ladder. -/
theorem ofCode_mem (c : Nat) : ofCode c ∈ fixedLadder := by
  have hall : ∀ k < 32, fixedLadder.getD k 64 ∈ fixedLadder := by decide
  exact hall (c % 32) (Nat.mod_lt c (by decide))

/-- Only the width of one digit has code zero. -/
theorem code_pos {n : Nat} (hn : 2 ≤ n) (h : n ∈ fixedLadder) : 0 < code n := by
  have hall : ∀ w ∈ fixedLadder, 2 ≤ w → 0 < code w := by decide
  exact hall n h hn

/-! ## (3) The width of numbers -/

/-- A number below a power of two has at most as many bits. -/
theorem bitLength_le {n k : Nat} (h : n < 2 ^ k) : bitLength n ≤ k := by
  unfold bitLength
  split
  · omega
  · rename_i hn
    have hlog : n.log2 < k := (Nat.log2_lt hn).mpr h
    omega

/-- A number is below the power of its bits. -/
theorem lt_two_pow_bitLength (n : Nat) : n < 2 ^ bitLength n := by
  unfold bitLength
  split
  · omega
  · exact Nat.lt_log2_self

/-- The width that numbers need is a rung of its ladder. -/
theorem required_mem (n : Nat) : required n ∈ fixedLadder := fixed_mem _

/-- **A number of 64 bits fits its width.** -/
theorem lt_two_pow_required {n : Nat} (h : n < 2 ^ 64) : n < 2 ^ required n := by
  have hle : bitLength n ≤ required n := le_fixed (bitLength_le h)
  calc n < 2 ^ bitLength n := lt_two_pow_bitLength n
    _ ≤ 2 ^ required n := Nat.pow_le_pow_right (by decide) hle

/-- In a falling list, the first member with a property is at least every member with it. -/
theorem exists_find?_of_pairwise {p : Nat → Bool} {ladder : List Nat} {w : Nat}
    (hl : ladder.Pairwise (· ≥ ·)) (hw : w ∈ ladder) (hp : p w = true) :
    ∃ top, ladder.find? p = some top ∧ w ≤ top := by
  induction ladder with
  | nil => cases hw
  | cons hd tl ih =>
      obtain ⟨hhd, htl⟩ := List.pairwise_cons.mp hl
      by_cases hpd : p hd = true
      · refine ⟨hd, List.find?_cons_of_pos hpd, ?_⟩
        rcases List.mem_cons.mp hw with rfl | hmem
        · exact Nat.le_refl w
        · exact hhd w hmem
      · rcases List.mem_cons.mp hw with rfl | hmem
        · exact absurd hp hpd
        · rw [List.find?_cons_of_neg hpd]
          exact ih htl hmem

/-- The covering width is on the fine ladder and reaches any rung that more than `spare` of the
values need. -/
theorem covering_spec {spare : Int} {values : List Nat} {w : Nat} (hw : w ∈ fixedLadder)
    (h : spare < ((values.map required).countP (w ≤ ·) : Nat)) :
    covering spare values ∈ fixedLadder ∧ w ≤ covering spare values := by
  have hsorted : fixedLadder.reverse.Pairwise (· ≥ ·) := by decide
  obtain ⟨top, hfind, hle⟩ := exists_find?_of_pairwise
    (p := fun w => spare < ((values.map required).countP (w ≤ ·) : Nat)) hsorted
    (List.mem_reverse.mpr hw) (by simpa using h)
  have htop : covering spare values = top := by
    unfold covering
    dsimp only
    rw [hfind, Option.getD_some]
  have hmem : top ∈ fixedLadder.reverse := List.mem_of_find?_eq_some hfind
  rw [htop]
  exact ⟨List.mem_reverse.mp hmem, hle⟩

/-- A width that spares fewer values than there are is on the fine ladder. -/
theorem covering_mem (spare : Int) (values : List Nat) (h : spare < values.length) :
    covering spare values ∈ fixedLadder := by
  have hall : (values.map required).countP (1 ≤ ·) = values.length := by
    rw [← List.length_map (f := required), List.countP_eq_length]
    intro w hw
    obtain ⟨v, -, rfl⟩ := List.mem_map.mp hw
    exact decide_eq_true (bounds_of_mem_fixedLadder (required_mem v)).1
  exact (covering_spec (w := 1) (by decide) (by rw [hall]; exact h)).1

/-- **The width that spares no value holds every value of 64 bits.** -/
theorem lt_two_pow_covering {values : List Nat} {v : Nat} (hv : v ∈ values) (h : v < 2 ^ 64) :
    v < 2 ^ covering 0 values := by
  have hcount : 0 < (values.map required).countP (required v ≤ ·) :=
    List.countP_pos_iff.mpr ⟨required v, List.mem_map_of_mem hv, by simp⟩
  have hle : required v ≤ covering 0 values :=
    (covering_spec (required_mem v) (by exact_mod_cast hcount)).2
  calc v < 2 ^ required v := lt_two_pow_required h
    _ ≤ 2 ^ covering 0 values := Nat.pow_le_pow_right (by decide) hle

end Width

end ColumnFile
