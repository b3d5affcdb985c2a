import ColumnFile.Buffer.Machine
import ColumnFile.Proofs.Buffer.Calls
import ColumnFile.Proofs.Machine

/-! # Buffers within a machine

A buffer on a machine does what it does on numbers as long as no more memory is asked for than there
can be. A call that asks for more stops the program, and nothing else does: the sums and places of
the other calls stay inside of memory that is there.

* **`Buffer.Overdraws`** — there is neither room for some octets nor memory to make it.
* **`Machine.reserve_eq`**, **`Machine.append_eq`** — room and octets for which there is memory;
  `reserve_stops` and `append_stops` — those for which there is none.
* **`Buffer.Call.Overdraws`**, **`Machine.perform_eq`**, **`Machine.perform_stops`** — one call.
* **`Machine.performAll_cases`** — a run of calls, by induction on them.
* **`Buffer.Origin.calls_laws`** — what holds of every buffer that was made and called. -/

namespace ColumnFile

namespace Buffer

/-- **A buffer cannot make room** for `n` octets: they do not fit, and the memory that would hold
them, or twice the memory that there is, is more than can be asked for. -/
def Overdraws (b : Buffer) (n : Nat) : Prop :=
  b.available < n ∧ Machine.limit < max (b.used + n) (b.capacity * 2)

/-- It can be decided whether a call asks for too much. -/
instance (b : Buffer) (n : Nat) : Decidable (b.Overdraws n) := inferInstanceAs (Decidable (_ ∧ _))

/-- **A buffer of a machine**: its cursors are in order, and its memory could be asked for. -/
structure Backed (b : Buffer) : Prop where
  ordered : b.Ordered
  capacity : b.capacity ≤ Machine.limit

end Buffer

namespace Machine

variable {b b' : Buffer} {n : Nat} {bs : Bytes}

/-! ## (1) Room -/

/-- The most octets that can be asked for are a word. -/
theorem limit_eq : limit = 2 ^ 63 - 1 := rfl

/-- Memory that can be asked for. -/
theorem reallocate_eq (h : n ≤ limit) :
    reallocate b n = .ok { b with mem := b.mem.resize n, owned := true } := by
  rw [reallocate, allocate_eq h]
  rfl

/-- Memory that is more than can be asked for. -/
theorem reallocate_stops (h : limit < n) : reallocate b n = .error (.trap .capacity) := by
  rw [reallocate, allocate_capacity h]
  rfl

/-- **Room that there is memory for** is made. -/
theorem reserve_eq (h : ¬ b.Overdraws n) : reserve b n = .ok (b.reserve n) := by
  rw [reserve, Buffer.reserve]
  by_cases hroom : n ≤ b.available
  · rw [if_pos hroom, if_pos hroom]
  · have hlimit : max (b.used + n) (b.capacity * 2) ≤ limit :=
      Nat.not_lt.mp fun hpast => h ⟨Nat.not_le.mp hroom, hpast⟩
    have hsum : b.used + n ≤ limit := Nat.le_trans (Nat.le_max_left _ _) hlimit
    have htwice : b.capacity * 2 ≤ limit := Nat.le_trans (Nat.le_max_right _ _) hlimit
    have hmin : Buffer.minCapacity ≤ limit := by decide
    rw [limit_eq] at hsum htwice
    rw [if_neg hroom, if_neg hroom, add_eq (by omega), ok_bind, mul_eq (by omega), ok_bind]
    exact reallocate_eq (Nat.max_le.mpr ⟨hlimit, hmin⟩)

/-- **Room that there is no memory for** stops the program: a sum is no word, or more is asked for
than there can be. -/
theorem reserve_stops (h : b.Overdraws n) : ∃ t, reserve b n = .error (.trap t) := by
  obtain ⟨hfull, hpast⟩ := h
  rw [reserve, if_neg (Nat.not_le.mpr hfull)]
  by_cases hsum : b.used + n < UInt64.size
  · rw [add_eq hsum, ok_bind]
    by_cases htwice : b.capacity * 2 < UInt64.size
    · rw [mul_eq htwice, ok_bind]
      exact ⟨_, reallocate_stops (Nat.lt_of_lt_of_le hpast (Nat.le_max_left _ _))⟩
    · rw [mul_overflow (Nat.not_lt.mp htwice)]
      exact ⟨_, rfl⟩
  · rw [add_overflow (Nat.not_lt.mp hsum)]
    exact ⟨_, rfl⟩

/-- Room that was made is memory that could be asked for. -/
theorem backed_reserve (hb : b.Backed) (h : ¬ b.Overdraws n) : (b.reserve n).Backed := by
  refine ⟨(hb.ordered.goesOn_reserve n).ordered, ?_⟩
  have hcapacity := hb.capacity
  unfold Buffer.reserve
  split
  · exact hcapacity
  · rename_i hroom
    have hlimit : max (b.used + n) (b.capacity * 2) ≤ limit :=
      Nat.not_lt.mp fun hpast => h ⟨Nat.not_le.mp hroom, hpast⟩
    have hmin : Buffer.minCapacity ≤ limit := by decide
    show (Bytes.resize _ _).length ≤ limit
    rw [Bytes.length_resize]
    exact Nat.max_le.mpr ⟨hlimit, hmin⟩

/-! ## (2) Octets -/

/-- Octets that there is room for are laid behind the committed ones. -/
theorem lay_eq (hb : b.Backed) (hroom : b.used + bs.length ≤ b.capacity) :
    lay b bs = .ok { b.put b.used bs with used := b.used + bs.length } := by
  have hcapacity := hb.capacity
  rw [limit_eq] at hcapacity
  rw [lay, add_eq (by omega), ok_bind, within_eq (Nat.le_add_right _ _) hroom]
  rfl

/-- Octets are laid into the room that was made for them. -/
theorem lay_reserve (hb : b.Backed) (h : ¬ b.Overdraws bs.length) :
    lay (b.reserve bs.length) bs = .ok (b.append bs) := by
  obtain ⟨hused, -, -, hroom⟩ := hb.ordered.reserve bs.length
  rw [lay_eq (backed_reserve hb h) (by rw [hused]; exact hroom), hused]
  have hput : ((b.reserve bs.length).put b.used bs).used = b.used := hused
  rw [Buffer.append, hput]

/-- **Octets that there is memory for** are added. -/
theorem append_eq (hb : b.Backed) (h : ¬ b.Overdraws bs.length) :
    append b bs = .ok (b.append bs) := by
  rw [append, reserve_eq h, ok_bind, lay_reserve hb h]

/-- **Octets that there is no memory for** stop the program. -/
theorem append_stops (h : b.Overdraws bs.length) : ∃ t, append b bs = .error (.trap t) := by
  obtain ⟨t, hreserve⟩ := reserve_stops h
  exact ⟨t, by rw [append, hreserve]; rfl⟩

/-- Zeros are octets. -/
theorem appendZeros_eq_append (b : Buffer) (n : Nat) :
    appendZeros b n = append b (Bytes.zeros n) := by
  rw [append, Bytes.zeros, List.length_replicate]
  rfl

end Machine

/-! ## (3) One call -/

namespace Buffer.Call

/-- **A call asks for more memory** than there can be. -/
def Overdraws : Call → Buffer → Prop
  | resize capacity, b => b.used ≤ capacity ∧ Machine.limit < capacity
  | reserve n, b => b.Overdraws n
  | append bs, b => b.Overdraws bs.length
  | appendZeros n, b => b.Overdraws n
  | push _, b => b.Overdraws 1
  | _, _ => False

end Buffer.Call

namespace Machine

open Buffer (Call)

variable {b b' : Buffer} {call : Call} {outcome : Attempt Buffer}

/-- What a step of a buffer leaves: its result, or the buffer as it was if the step fails. -/
def attempt (step : Except Stop Buffer) (b : Buffer) : Except Trap (Attempt Buffer) :=
  (answer step).map fun result => Attempt.ofStep (fun _ => result) b

/-- What a call does to a buffer on a machine. -/
def perform : Call → Buffer → Except Trap (Attempt Buffer)
  | .resize capacity, b => attempt (resize b capacity) b
  | .reserve n, b => attempt (reserve b n) b
  | .append bs, b => attempt (append b bs) b
  | .appendZeros n, b => attempt (appendZeros b n) b
  | .push x, b => attempt (append b [x]) b
  | call, b => .ok (call.perform b)

/-- What becomes of a buffer by calls one after another, whether they go through or not. -/
def performAll : List Call → Buffer → Except Trap Buffer
  | [], b => .ok b
  | call :: calls, b => do
    let (_, b) ← perform call b
    performAll calls b

/-- A step that succeeds. -/
theorem attempt_ok {step : Except Stop Buffer} (h : step = .ok b') :
    attempt step b = .ok (.ok (), b') := by
  rw [attempt, h]
  rfl

/-- A step that stops the program. -/
theorem attempt_stops {step : Except Stop Buffer} (h : ∃ t, step = .error (.trap t)) :
    ∃ t, attempt step b = .error t := by
  obtain ⟨t, ht⟩ := h
  exact ⟨t, by rw [attempt, ht]; rfl⟩

/-- **A call for which there is memory** does what it does on numbers. -/
theorem perform_eq (hb : b.Backed) (h : ¬ call.Overdraws b) :
    perform call b = .ok (call.perform b) := by
  cases call with
  | resize capacity =>
      rw [Call.perform_resize, perform, attempt, resize]
      by_cases hfits : b.used ≤ capacity
      · rw [if_neg (Nat.not_lt.mpr hfits), if_pos hfits,
          reallocate_eq (Nat.not_lt.mp fun hpast => h ⟨hfits, hpast⟩)]
        rfl
      · rw [if_pos (Nat.not_le.mp hfits), if_neg hfits]
        rfl
  | reserve n => exact attempt_ok (reserve_eq h)
  | append bs => exact attempt_ok (append_eq hb h)
  | appendZeros n =>
      have hzeros : ¬ b.Overdraws (Bytes.zeros n).length := by
        rwa [Bytes.zeros, List.length_replicate]
      exact attempt_ok ((appendZeros_eq_append b n).trans (append_eq hb hzeros))
  | push x =>
      have hone : ¬ b.Overdraws [x].length := h
      exact attempt_ok (append_eq hb hone)
  | place _ | commit _ | commitAll | consume _ | consumeAll | clear | fillTail _ | own => rfl

/-- **A call for which there is no memory** stops the program. -/
theorem perform_stops (h : call.Overdraws b) : ∃ t, perform call b = .error t := by
  cases call with
  | resize capacity =>
      refine attempt_stops ⟨.capacity, ?_⟩
      rw [resize, if_neg (Nat.not_lt.mpr h.1), reallocate_stops h.2]
  | reserve n => exact attempt_stops (reserve_stops h)
  | append bs => exact attempt_stops (append_stops h)
  | appendZeros n =>
      have hzeros : b.Overdraws (Bytes.zeros n).length := by
        rwa [Bytes.zeros, List.length_replicate]
      exact attempt_stops (appendZeros_eq_append b n ▸ append_stops hzeros)
  | push x =>
      have hone : b.Overdraws [x].length := h
      exact attempt_stops (append_stops hone)
  | place _ | commit _ | commitAll | consume _ | consumeAll | clear | fillTail _ | own =>
    exact h.elim

/-- **One call** leaves a buffer of a machine, if it does not stop it. -/
theorem backed_perform (hb : b.Backed) (h : ¬ call.Overdraws b) : (call.perform b).2.Backed := by
  refine ⟨Call.perform_ordered call hb.ordered, ?_⟩
  have hcapacity := hb.capacity
  -- octets that are appended are put where there is room for them, after it was reserved
  have hgrown : ∀ n, ¬ b.Overdraws n → ∀ bs : Bytes, bs.length = n →
    (b.append bs).capacity ≤ limit := by
    rintro n hn bs rfl
    obtain ⟨hused, -, -, hroom⟩ := hb.ordered.reserve bs.length
    have hfree : (b.reserve bs.length).used + bs.length ≤ (b.reserve bs.length).capacity :=
      hused ▸ hroom
    have hput := Buffer.capacity_put hfree
    rw [hused] at hput
    exact Nat.le_trans (Nat.le_of_eq hput) (backed_reserve hb hn).capacity
  -- of the calls, only four may ask for memory; the others stay in what is there
  cases call with
  | place bs =>
      rw [Call.perform_place]
      split
      · rename_i hfits
        have hused := hb.ordered.2
        unfold Buffer.available at hfits
        exact Nat.le_trans (Nat.le_of_eq (Buffer.capacity_put (by omega))) hcapacity
      · exact hcapacity
  | commit n => rw [Call.perform_commit]; split <;> exact hcapacity
  | consume n => rw [Call.perform_consume]; split <;> exact hcapacity
  | resize capacity =>
      rw [Call.perform_resize]
      split
      · rename_i hfits
        show (Bytes.resize _ _).length ≤ limit
        rw [Bytes.length_resize]
        exact Nat.not_lt.mp fun hpast => h ⟨hfits, hpast⟩
      · exact hcapacity
  | reserve n => exact (backed_reserve hb h).capacity
  | append bs => exact hgrown _ h bs rfl
  | appendZeros n => exact hgrown n h (Bytes.zeros n) List.length_replicate
  | push x => exact hgrown 1 h [x] rfl
  | fillTail pass =>
      have hused := hb.ordered.2
      have htail : (pass.run b.tail).length = b.capacity - b.used := by
        rw [pass.length_run]
        exact List.length_drop
      exact Nat.le_trans (Nat.le_of_eq (Buffer.capacity_put (by omega))) hcapacity
  | commitAll | consumeAll | clear | own => exact hcapacity

/-! ## (4) Runs of calls -/

/-- **A run of calls** does what it does on numbers, up to the first call for which there is no
memory; that one stops the program. By induction on the calls: each leaves a buffer of a machine for
the next. -/
theorem performAll_cases (hb : b.Backed) (calls : List Call) :
    (performAll calls b = .ok (Call.performAll calls b) ∧ (Call.performAll calls b).Backed) ∨
      ∃ before call after t, calls = before ++ call :: after ∧
        performAll before b = .ok (Call.performAll before b) ∧
        call.Overdraws (Call.performAll before b) ∧
        performAll calls b = .error t := by
  induction calls generalizing b with
  | nil => exact .inl ⟨rfl, hb⟩
  | cons call calls ih =>
      by_cases hcall : call.Overdraws b
      · obtain ⟨t, hstop⟩ := perform_stops hcall
        exact .inr ⟨[], call, calls, t, rfl, rfl, hcall, by rw [performAll, hstop]; rfl⟩
      · have hstep : ∀ calls, performAll (call :: calls) b =
          performAll calls (call.perform b).2 := by
          intro calls
          rw [performAll, perform_eq hb hcall]
          rfl
        rcases ih (backed_perform hb hcall) with ⟨hrun, hbacked⟩ |
          ⟨before, stopping, after, t, rfl, hrun, hover, hstop⟩
        · exact .inl ⟨(hstep calls).trans hrun, hbacked⟩
        · exact .inr ⟨call :: before, stopping, after, t, rfl, (hstep before).trans hrun, hover,
            (hstep _).trans hstop⟩

end Machine

/-! ## (5) Buffers that were made and called -/

namespace Buffer

/-- The ways in which a buffer is **made**: of a capacity, or of octets that are there. -/
inductive Origin
  | ofCapacity (capacity : Nat)
  | ofBytes (bs : Bytes) (there : bs.length ≤ Machine.limit)
  | borrow (bs : Bytes) (there : bs.length ≤ Machine.limit)

namespace Origin

/-- Makes a buffer on a machine. -/
def make : Origin → Except Stop Buffer
  | ofCapacity capacity => Machine.newBuffer capacity
  | ofBytes bs _ => .ok (Buffer.ofBytes bs)
  | borrow bs _ => .ok (Buffer.borrow bs)

/-- Makes a buffer on a machine and calls it. -/
def run (origin : Origin) (calls : List Call) : Except Stop Buffer := do
  let b ← origin.make
  (Machine.performAll calls b).mapError .trap

/-- The capacity that is asked for is more than there can be. -/
def Overdraws : Origin → Prop
  | ofCapacity capacity => Machine.limit < capacity
  | _ => False

/-- **A new buffer** is one of a machine, if its capacity is not too much to ask for. -/
theorem make_cases (origin : Origin) :
    (origin.Overdraws ∧ origin.make = .error (.trap .capacity)) ∨
      ∃ b, origin.make = .ok b ∧ b.Backed ∧ ¬ origin.Overdraws := by
  cases origin with
  | ofCapacity capacity =>
      by_cases hfits : capacity ≤ Machine.limit
      · refine .inr ⟨Buffer.ofCapacity capacity, ?_, ⟨⟨Nat.le_refl 0, Nat.zero_le _⟩, ?_⟩,
          Nat.not_lt.mpr hfits⟩
        · rw [make, Machine.newBuffer, Machine.allocate_eq hfits]
          rfl
        · exact Nat.le_trans (Nat.le_of_eq List.length_replicate) hfits
      · refine .inl ⟨Nat.not_le.mp hfits, ?_⟩
        rw [make, Machine.newBuffer, Machine.allocate_capacity (Nat.not_le.mp hfits)]
        rfl
  | ofBytes bs there => exact .inr ⟨_, rfl, ⟨⟨Nat.zero_le _, Nat.le_refl _⟩, there⟩, not_false⟩
  | borrow bs there => exact .inr ⟨_, rfl, ⟨⟨Nat.zero_le _, Nat.le_refl _⟩, there⟩, not_false⟩

/-- **What holds of every buffer** that is made in any way and called in any way. A run stops the
program exactly when a capacity or a call asks for more memory than there can be. If none does, the
cursors are in order. The next call stops the program, if it asks for too much; or it goes through,
if what it asks for is there; or it fails and changes nothing. Calls other than the one that takes
the cursors back lower no cursor and keep the committed octets; octets that are added come right
behind the committed ones; and room that is made is there. -/
theorem calls_laws (origin : Origin) (calls : List Call) :
    ((origin.Overdraws ∨ ∃ before call after b, calls = before ++ call :: after ∧
        origin.run before = .ok b ∧ call.Overdraws b) ∧
      ∃ t, origin.run calls = .error (.trap t)) ∨
    ∃ b, origin.run calls = .ok b ∧
      (b.treated ≤ b.used ∧ b.used ≤ b.capacity) ∧
      (∀ call : Call,
        (call.Overdraws b ∧ ∃ t, Machine.perform call b = .error t) ∨
          ¬ call.Overdraws b ∧
            ((call.Fits b ∧ ∃ b', Machine.perform call b = .ok (.ok (), b')) ∨
              ¬ call.Fits b ∧ ∃ e, Machine.perform call b = .ok (.error e, b))) ∧
      (∀ more b', Call.clear ∉ more → Machine.performAll more b = .ok b' →
        b.used ≤ b'.used ∧ b.treated ≤ b'.treated ∧ b.committed <+: b'.committed) ∧
      (∀ bs b', Machine.append b bs = .ok b' →
        b'.committed = b.committed ++ bs ∧ b'.treated = b.treated) ∧
      ∀ n b', Machine.reserve b n = .ok b' → n ≤ b'.available := by
  -- the buffer is made first, then the calls are followed up to the first that stops
  rcases origin.make_cases with ⟨hover, hmake⟩ | ⟨new, hmake, hnew, -⟩
  · exact .inl ⟨.inl hover, .capacity, by rw [run, hmake]; rfl⟩
  have hrun : ∀ calls, origin.run calls = (Machine.performAll calls new).mapError .trap := by
    intro calls
    rw [run, hmake, ok_bind]
  rcases Machine.performAll_cases hnew calls with
    ⟨hdone, hb⟩ | ⟨before, call, after, t, rfl, hbefore, hover, hstop⟩
  · refine .inr ⟨_, by rw [hrun, hdone]; rfl, hb.ordered, ?_, ?_, ?_, ?_⟩
    · intro call
      by_cases hcall : call.Overdraws (Call.performAll calls new)
      · exact .inl ⟨hcall, Machine.perform_stops hcall⟩
      · rw [Machine.perform_eq hb hcall]
        rcases Call.perform_cases call (Call.performAll calls new) with ⟨hfits, hok⟩ |
          ⟨hfits, e, hfailed⟩
        · exact .inr ⟨hcall, .inl ⟨hfits, _, congrArg Except.ok (Prod.ext hok rfl)⟩⟩
        · exact .inr ⟨hcall, .inr ⟨hfits, e, congrArg Except.ok hfailed⟩⟩
    -- calls that go on from there and do not stop keep the cursors going up
    · intro more b' hmore hthen
      rcases Machine.performAll_cases hb more with ⟨hdone', -⟩ | ⟨_, _, _, t, _, _, _, hstop⟩
      · rw [hdone'] at hthen
        cases hthen
        have hon := Call.performAll_goesOn hb.ordered hmore
        exact ⟨hon.used, hon.treated, hon.committed⟩
      · rw [hstop] at hthen
        cases hthen
    · intro bs b' happend
      by_cases hover : (Call.performAll calls new).Overdraws bs.length
      · obtain ⟨t, hstop⟩ := Machine.append_stops hover
        rw [hstop] at happend
        cases happend
      · rw [Machine.append_eq hb hover] at happend
        cases happend
        exact ⟨hb.ordered.committed_append bs, (hb.ordered.append bs).2.2⟩
    · intro n b' hreserve
      by_cases hover : (Call.performAll calls new).Overdraws n
      · obtain ⟨t, hstop⟩ := Machine.reserve_stops hover
        rw [hstop] at hreserve
        cases hreserve
      · rw [Machine.reserve_eq hover] at hreserve
        cases hreserve
        exact hb.ordered.le_available_reserve n
  · refine .inl ⟨.inr ⟨before, call, after, _, rfl, ?_, hover⟩, t, by rw [hrun, hstop]; rfl⟩
    rw [hrun, hbefore]
    rfl

/-- One octet, and room for as many as a word counts: the sum of the two is no word. -/
example : Machine.reserve (Buffer.ofBytes [1]) (2 ^ 64 - 1) = .error (.trap .overflow) := by
  rw [Machine.reserve, if_neg (by decide), Machine.add_overflow (by decide)]
  rfl

end Origin

end Buffer

end ColumnFile
