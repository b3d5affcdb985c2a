import ColumnFile.Proofs.Buffer

/-! # The cursors of a buffer

A buffer that is made and then called in any way keeps its cursors in order. Its cursors and its
committed octets only ever grow, up to the call that takes both cursors back.

* **`Buffer.Call`** — the calls that change a buffer; `Call.Fits` — when one of them goes through.
* **`Buffer.GoesOn`** — the relation of a buffer and what becomes of it without going back.
* **`Buffer.Call.perform_cases`** — a call goes through or changes nothing.
* **`Buffer.Call.perform_goesOn`** — what one call keeps; `Buffer.Call.performAll_goesOn` — what a
  run keeps. -/

namespace ColumnFile

namespace Buffer

/-! ## (1) Calls -/

/-- A **pass** over memory: it changes octets where they are. -/
structure Pass where
  /-- What becomes of the octets. -/
  run : Bytes → Bytes
  /-- There are as many of them as before. -/
  length_run : ∀ bs, (run bs).length = bs.length

/-- The **calls** that change a buffer. -/
inductive Call
  | place (bs : Bytes)
  | commit (n : Nat)
  | commitAll
  | consume (n : Nat)
  | consumeAll
  | clear
  | resize (capacity : Nat)
  | reserve (n : Nat)
  | append (bs : Bytes)
  | appendZeros (n : Nat)
  | push (x : UInt8)
  | fillTail (pass : Pass)
  | own

namespace Call

/-- What a call does to a buffer. -/
def perform : Call → Buffer → Attempt Buffer
  | place bs, b => Attempt.ofStep (·.place bs) b
  | commit n, b => Attempt.ofStep (·.commit n) b
  | commitAll, b => (.ok (), b.commitAll)
  | consume n, b => Attempt.ofStep (·.consume n) b
  | consumeAll, b => (.ok (), b.consumeAll)
  | clear, b => (.ok (), b.clear)
  | resize capacity, b => Attempt.ofStep (·.resize capacity) b
  | reserve n, b => (.ok (), b.reserve n)
  | append bs, b => (.ok (), b.append bs)
  | appendZeros n, b => (.ok (), b.appendZeros n)
  | push x, b => (.ok (), b.push x)
  | fillTail pass, b => (.ok (), b.fillTail pass.run)
  | own, b => (.ok (), b.own)

/-- What becomes of a buffer by calls one after another, whether they go through or not. -/
def performAll (calls : List Call) (b : Buffer) : Buffer :=
  calls.foldl (fun b call => (call.perform b).2) b

@[simp] theorem performAll_nil (b : Buffer) : performAll [] b = b := rfl

@[simp] theorem performAll_cons (call : Call) (calls : List Call) (b : Buffer) :
    performAll (call :: calls) b = performAll calls (call.perform b).2 := rfl

/-- What a call asks for is there. -/
def Fits : Call → Buffer → Prop
  | place bs, b => bs.length ≤ b.available
  | commit n, b => n ≤ b.available
  | consume n, b => n ≤ b.untreated
  | resize capacity, b => b.used ≤ capacity
  | _, _ => True

end Call

/-! ## (2) Going on from a buffer -/

/-- `b'` **goes on from** `b`: no cursor is lower, and the octets that were committed are still the
first ones. -/
structure GoesOn (b b' : Buffer) : Prop where
  ordered : b'.Ordered
  used : b.used ≤ b'.used
  treated : b.treated ≤ b'.treated
  committed : b.committed <+: b'.committed

variable {b b' b'' : Buffer}

/-- A buffer goes on from itself. -/
theorem Ordered.goesOn (h : b.Ordered) : b.GoesOn b :=
  ⟨h, Nat.le_refl _, Nat.le_refl _, List.prefix_rfl⟩

/-- A buffer goes on from all that it went on from before. -/
theorem GoesOn.trans (h : b.GoesOn b') (h' : b'.GoesOn b'') : b.GoesOn b'' :=
  ⟨h'.ordered, Nat.le_trans h.used h'.used, Nat.le_trans h.treated h'.treated,
    h.committed.trans h'.committed⟩

/-- A buffer goes on when the memory below its cursor is the same and the cursors have not moved
down. -/
theorem goesOn_of_take (hordered : b'.Ordered) (hused : b.used ≤ b'.used)
    (htreated : b.treated ≤ b'.treated) (hmem : b'.mem.take b.used = b.mem.take b.used) :
    b.GoesOn b' := by
  refine ⟨hordered, hused, htreated, ?_⟩
  rw [Buffer.committed, Buffer.committed, ← hmem]
  exact List.take_prefix_take_left hused

/-- A buffer goes on when octets are put behind those in use. -/
theorem Ordered.goesOn_put (h : b.Ordered) {bs : Bytes} (hfits : b.used + bs.length ≤ b.capacity) :
    b.GoesOn (b.put b.used bs) := by
  obtain ⟨hordered, hcommitted⟩ := h.put hfits
  exact goesOn_of_take hordered (Nat.le_refl _) (Nat.le_refl _) hcommitted

/-- A new capacity that holds what is committed. -/
theorem Ordered.goesOn_resize (h : b.Ordered) {capacity : Nat} (hfits : b.used ≤ capacity) :
    b.GoesOn { b with mem := b.mem.resize capacity, owned := true } := by
  refine goesOn_of_take ⟨h.1, ?_⟩ (Nat.le_refl _) (Nat.le_refl _) ?_
  · show b.used ≤ (b.mem.resize capacity).length
    rw [Bytes.length_resize]
    exact hfits
  · show (b.mem.resize capacity).take b.used = b.mem.take b.used
    have hfront : b.used ≤ (b.mem.take capacity).length := by
      rw [List.length_take]
      exact Nat.le_min.mpr ⟨hfits, h.2⟩
    rw [Bytes.resize, List.take_append_of_le_length hfront, List.take_take, Nat.min_eq_left hfits]

/-- **Adding octets** goes on, and commits exactly those. -/
theorem Ordered.goesOn_append (h : b.Ordered) (bs : Bytes) : b.GoesOn (b.append bs) := by
  obtain ⟨hordered, hused, htreated⟩ := h.append bs
  refine ⟨hordered, ?_, Nat.le_of_eq htreated.symm, ?_⟩
  · rw [hused]
    exact Nat.le_add_right _ _
  · rw [h.committed_append]
    exact List.prefix_append _ _

/-- **Making room** leaves as much as was asked for. -/
theorem Ordered.le_available_reserve (h : b.Ordered) (n : Nat) : n ≤ (b.reserve n).available := by
  obtain ⟨hused, -, -, hroom⟩ := h.reserve n
  rw [available, hused]
  omega

/-- A buffer goes on when room is made. -/
theorem Ordered.goesOn_reserve (h : b.Ordered) (n : Nat) : b.GoesOn (b.reserve n) := by
  obtain ⟨hused, htreated, hcommitted, hroom⟩ := h.reserve n
  refine ⟨⟨?_, ?_⟩, Nat.le_of_eq hused.symm, Nat.le_of_eq htreated.symm, ?_⟩
  · rw [hused, htreated]
    exact h.1
  · rw [hused]
    exact Nat.le_of_add_right_le hroom
  · exact hcommitted ▸ List.prefix_rfl

/-! ## (3) One call -/

/-- **A guarded step**, as an attempt: it is taken within its limit, and has no effect beyond it. -/
theorem ofStep_guard (step : Buffer → Except Fault Buffer) {n limit : Nat} {e : Fault}
    (h : step b = if limit < n then .error e else .ok b') :
    Attempt.ofStep step b = if n ≤ limit then (.ok (), b') else (.error e, b) := by
  by_cases hlimit : n ≤ limit
  · rw [if_neg (Nat.not_lt.mpr hlimit)] at h
    rw [if_pos hlimit, Attempt.ofStep, h]
  · rw [if_pos (Nat.not_le.mp hlimit)] at h
    rw [if_neg hlimit, Attempt.ofStep, h]

namespace Call

/-- Octets are placed if there is room for them. -/
theorem perform_place (bs : Bytes) (b : Buffer) :
    (place bs).perform b = if bs.length ≤ b.available then (.ok (), b.put b.used bs)
      else (.error .writePastCapacity, b) :=
  ofStep_guard (·.place bs) rfl

/-- Octets are committed if they are there. -/
theorem perform_commit (n : Nat) (b : Buffer) :
    (commit n).perform b = if n ≤ b.available then (.ok (), { b with used := b.used + n })
      else (.error .commitPastCapacity, b) :=
  ofStep_guard (·.commit n) rfl

/-- Octets are consumed if they are untreated. -/
theorem perform_consume (n : Nat) (b : Buffer) :
    (consume n).perform b = if n ≤ b.untreated then (.ok (), { b with treated := b.treated + n })
      else (.error .consumePastCommitted, b) :=
  ofStep_guard (·.consume n) rfl

/-- A buffer is resized if the octets in use fit. -/
theorem perform_resize (capacity : Nat) (b : Buffer) :
    (resize capacity).perform b =
      if b.used ≤ capacity then (.ok (), { b with mem := b.mem.resize capacity, owned := true })
      else (.error .shrinkBelowCommitted, b) :=
  ofStep_guard (·.resize capacity) rfl

/-- **A call goes through** exactly when what it asks for is there, and otherwise **changes
nothing**. -/
theorem perform_cases (call : Call) (b : Buffer) :
    call.Fits b ∧ (call.perform b).1 = .ok () ∨
      ¬ call.Fits b ∧ ∃ e, call.perform b = (.error e, b) := by
  cases call with
  | place bs =>
      rw [perform_place]
      split
      · exact .inl ⟨‹_›, rfl⟩
      · exact .inr ⟨‹_›, _, rfl⟩
  | commit n =>
      rw [perform_commit]
      split
      · exact .inl ⟨‹_›, rfl⟩
      · exact .inr ⟨‹_›, _, rfl⟩
  | consume n =>
      rw [perform_consume]
      split
      · exact .inl ⟨‹_›, rfl⟩
      · exact .inr ⟨‹_›, _, rfl⟩
  | resize capacity =>
      rw [perform_resize]
      split
      · exact .inl ⟨‹_›, rfl⟩
      · exact .inr ⟨‹_›, _, rfl⟩
  | commitAll | consumeAll | clear | reserve _ | append _ | appendZeros _ | push _
  | fillTail _ | own =>
      exact .inl ⟨trivial, rfl⟩

/-- **One call** goes on from a buffer, unless it takes the cursors back. -/
theorem perform_goesOn {call : Call} (hb : b.Ordered) (hcall : call ≠ clear) :
    b.GoesOn (call.perform b).2 := by
  have htreated : b.treated ≤ b.used := hb.1
  have hused : b.used ≤ b.capacity := hb.2
  -- a call that moves a cursor moves it on; one that adds octets adds them behind the others
  cases call with
  | clear => exact absurd rfl hcall
  | place bs =>
      rw [perform_place]
      split
      · rename_i hfits
        rw [available] at hfits
        exact hb.goesOn_put (by omega)
      · exact hb.goesOn
  | commit n =>
      rw [perform_commit]
      split
      · rename_i hfits
        have hmoved : b.used + n ≤ b.capacity := by
          rw [available] at hfits
          omega
        exact goesOn_of_take ⟨Nat.le_add_right_of_le htreated, hmoved⟩ (Nat.le_add_right _ _)
          (Nat.le_refl _) rfl
      · exact hb.goesOn
  | commitAll =>
    exact goesOn_of_take ⟨Nat.le_trans htreated hused, Nat.le_refl _⟩ hused (Nat.le_refl _) rfl
  | consume n =>
      rw [perform_consume]
      split
      · rename_i hfits
        have hmoved : b.treated + n ≤ b.used := by
          rw [untreated] at hfits
          omega
        exact goesOn_of_take ⟨hmoved, hused⟩ (Nat.le_refl _) (Nat.le_add_right _ _) rfl
      · exact hb.goesOn
  | consumeAll => exact goesOn_of_take ⟨Nat.le_refl _, hused⟩ (Nat.le_refl _) htreated rfl
  | resize capacity =>
      rw [perform_resize]
      split
      · exact hb.goesOn_resize ‹_›
      · exact hb.goesOn
  | reserve n => exact hb.goesOn_reserve n
  | append bs => exact hb.goesOn_append bs
  | appendZeros n => exact hb.goesOn_append (Bytes.zeros n)
  | push x => exact hb.goesOn_append [x]
  | fillTail pass =>
      apply hb.goesOn_put
      have htail : b.tail.length = b.capacity - b.used := List.length_drop
      rw [pass.length_run, htail]
      omega
  | own => exact goesOn_of_take hb (Nat.le_refl _) (Nat.le_refl _) rfl

/-- **Taking the cursors back** keeps them in order, as every other call does. -/
theorem perform_ordered (call : Call) (hb : b.Ordered) : (call.perform b).2.Ordered := by
  cases call with
  | clear => exact ⟨Nat.le_refl 0, Nat.zero_le _⟩
  | _ => exact (perform_goesOn hb Call.noConfusion).ordered

/-! ## (4) Runs of calls -/

/-- **A run that never takes the cursors back** goes on from where it began. -/
theorem performAll_goesOn {calls : List Call} (hb : b.Ordered) (hcalls : clear ∉ calls) :
    b.GoesOn (performAll calls b) := by
  induction calls generalizing b with
  | nil => exact hb.goesOn
  | cons call calls ih =>
      rw [List.mem_cons, not_or] at hcalls
      have hfirst : b.GoesOn (call.perform b).2 := perform_goesOn hb (Ne.symm hcalls.1)
      exact hfirst.trans (ih hfirst.ordered hcalls.2)

end Call

/-- Octets that were placed and not committed give way to those that are added. -/
example : (Call.performAll [.place [1, 2], .commit 1, .append [9]]
    (Buffer.ofCapacity 4)).committed =
    [1, 9] := by decide +kernel

end Buffer

end ColumnFile
