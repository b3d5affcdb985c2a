import ColumnFile.Proofs.RunLength.Bounds
import ColumnFile.Proofs.RunLength.Literals

/-! # The encoder keeps every value

At every moment the runs that the encoder has written and the literals that it holds are, one behind
the other, the values that were appended. What carries the argument is the shape of its window: the
counters say of the pending literals either that they repeat or that they vary, and how many they
are.

* **`Run.Stream`** — a byte string that consists of runs, and the values they store;
  `readAll_of_stream` reads it.
* **`RunEncoder.Window`** — what the counters say of the pending literals.
* **`RunEncoder.Emits`** — a change that writes runs and keeps the rest pending; `append_spec` and
  `flush_spec` are what one call does.
* **`RunEncoder.Call`**, **`RunEncoder.run`** — sequences of calls, and `run_spec`, what they
  leave. -/

namespace ColumnFile

namespace Run

/-! ## (1) Streams of runs -/

/-- **A stream of runs** and the values that its runs store. -/
inductive Stream (signed : Bool) : Bytes → List Int64 → Prop
  /-- The empty stream stores nothing. -/
  | nil : Stream signed [] []
  /-- A run in front of a stream. -/
  | cons {run : Run} {values rest : List Int64} {bs : Bytes} (hrun : run.Stores signed values)
      (hrest : Stream signed bs rest) : Stream signed (run.encode signed ++ bs) (values ++ rest)

namespace Stream

variable {signed : Bool} {bs cs : Bytes} {vs ws : List Int64}

/-- One run is a stream. -/
theorem single {run : Run} (h : run.Stores signed vs) : Stream signed (run.encode signed) vs := by
  have hcons := Stream.cons h Stream.nil
  rw [List.append_nil, List.append_nil] at hcons
  exact hcons

/-- Streams follow each other. -/
theorem append (h : Stream signed bs vs) (h' : Stream signed cs ws) :
    Stream signed (bs ++ cs) (vs ++ ws) := by
  induction h with
  | nil => exact h'
  | cons hrun _ ih =>
      rw [List.append_assoc, List.append_assoc]
      exact Stream.cons hrun ih

end Stream

/-- **A stream of runs is read to its end**, and gives the values of its runs. -/
theorem readAll_of_stream {signed : Bool} {bs : Bytes} {values : List Int64}
    (h : Stream signed bs values) : readAll signed bs = .ok values := by
  induction h with
  | nil => rw [readAll, if_pos rfl]
  | @cons run values rest bs hrun _ ih =>
      rw [readAll_of_read (read_encode bs hrun), ih]
      rfl

end Run

namespace RunEncoder

variable {e e' : RunEncoder} {v : Int64}

/-! ## (2) The window -/

/-- **The window**: what the counters say of the pending literals. -/
inductive Window (e : RunEncoder) : Prop
  /-- Nothing is pending. -/
  | empty (hliterals : e.literals = [])
  /-- One literal may become either. -/
  | single (v : Int64) (hliterals : e.literals = [v]) (hfixed : e.fixedRun = 1)
      (hvar : e.varRun = 1)
  /-- All literals are equal. -/
  | repeats (v : Int64) (n : Nat) (htwo : 2 ≤ n) (hmax : n < Run.maxLength)
      (hliterals : e.literals = List.replicate n v) (hfixed : e.fixedRun = n) (hvar : e.varRun = 0)
      (hstep : e.lastStep = 0)
  /-- The literals vary, and the distance of the last two is known. -/
  | varying (front : List Int64) (before last : Int64) (hmax : e.literals.length < Run.maxLength)
      (hliterals : e.literals = front ++ [before, last]) (hfixed : e.fixedRun = 0)
      (hvar : e.varRun = e.literals.length) (hstep : e.lastStep = last - before)

/-- A window holds fewer literals than the longest run. -/
theorem Window.length_lt (h : e.Window) : e.literals.length < Run.maxLength := by
  cases h with
  | empty hliterals =>
      rw [hliterals]
      decide
  | single v hliterals _ _ =>
      rw [hliterals]
      show 1 < Run.maxLength
      decide
  | repeats v n _ hmax hliterals _ _ _ =>
      rw [hliterals, List.length_replicate]
      exact hmax
  | varying _ _ _ hmax _ _ _ _ => exact hmax

/-- **What a change writes**: runs behind the bytes already written, whose values with the literals
that it leaves are those that were pending. -/
def Emits (e e' : RunEncoder) (pending : List Int64) : Prop :=
  e'.signed = e.signed ∧ ∃ bs written, Run.Stream e.signed bs written ∧
    e'.output = e.output ++ bs ∧ written ++ e'.literals = pending

/-- A change that writes nothing. -/
theorem Emits.silent {pending : List Int64} (hsigned : e'.signed = e.signed) (hout : e'.out = e.out)
    (hliterals : e'.literals = pending) : Emits e e' pending := by
  refine ⟨hsigned, [], [], Run.Stream.nil, ?_, hliterals⟩
  rw [output, output, hout, List.append_nil]

/-! ## (3) Writing the window -/

/-- **Writing the window as a run** that stores it leaves no literal, and the counters are the
caller's. -/
def Wrote (e e' : RunEncoder) : Prop :=
  Emits e e' e.literals ∧ e'.literals = [] ∧ e'.lastStep = 0

/-- **A run that is written** stands for the literals that it takes. -/
theorem write_spec {run : Run} (h : run.Stores e.signed e.literals) : Wrote e (e.write run) := by
  refine ⟨⟨rfl, run.encode e.signed, e.literals, Run.Stream.single h, ?_, List.append_nil _⟩,
    rfl, rfl⟩
  rw [output, output, write, Array.toList_appendList]

/-- **A run with one step** takes all literals, and begins anew when few of them were alike. -/
theorem writeFixedDelta_spec {first step : Int64}
    (h : (Run.fixedDelta first step e.literals.length).Stores e.signed e.literals) :
    Wrote e (e.writeFixedDelta first step) ∧
      (e.fixedRun ≤ Run.minRepeat →
        (e.writeFixedDelta first step).fixedRun = e.fixedRun ∧
          (e.writeFixedDelta first step).varRun = 0) := by
  have hwrite := write_spec h
  unfold writeFixedDelta
  dsimp only
  by_cases hrun : Run.minRepeat < e.fixedRun
  · rw [if_pos hrun]
    exact ⟨hwrite, fun hle => absurd hrun (Nat.not_lt.mpr hle)⟩
  · rw [if_neg hrun]
    exact ⟨hwrite, fun _ => ⟨rfl, rfl⟩⟩

/-- Equal literals are stored by a run of distance zero. -/
theorem stores_replicate {signed : Bool} {n : Nat} (hpos : 0 < n) (hmax : n ≤ Run.maxLength) :
    (Run.fixedDelta v 0 n).Stores signed (List.replicate n v) := by
  refine ⟨hpos, hmax, ?_⟩
  clear hmax
  induction n with
  | zero => rfl
  | succ n ih =>
      rw [List.replicate_succ, Run.progression, Int64.add_zero]
      by_cases hn : n = 0
      · rw [hn]
        rfl
      · rw [← ih (by omega)]

/-- **A run of one value** takes all literals. -/
theorem writeRepeat_spec {n : Nat} (hthree : Run.minRepeat ≤ n) (hmax : n ≤ Run.maxLength)
    (hliterals : e.literals = List.replicate n v) (hfixed : e.fixedRun = n) :
    Wrote e e.writeRepeat := by
  have h3 : 3 ≤ n := hthree
  have hhead : e.literals.headD 0 = v := by
    obtain ⟨m, rfl⟩ : ∃ m, n = m + 1 := ⟨n - 1, by omega⟩
    rw [hliterals, List.replicate_succ]
    rfl
  have hlength : e.literals.length = n := by rw [hliterals, List.length_replicate]
  unfold writeRepeat
  dsimp only
  rw [hhead]
  by_cases hshort : e.fixedRun ≤ Run.maxShortRepeat
  · rw [if_pos hshort]
    have hstores : (Run.shortRepeat v e.literals.length).Stores e.signed e.literals := by
      rw [hlength, hliterals]
      exact ⟨hthree, hfixed ▸ hshort, rfl⟩
    exact write_spec hstores
  · rw [if_neg hshort]
    refine (writeFixedDelta_spec ?_).1
    rw [hlength, hliterals]
    exact stores_replicate (by omega) hmax

/-- **A run with other steps** takes all literals, and begins anew when few of them were alike. -/
theorem writeVarying_spec (hpos : 0 < e.literals.length)
    (hmax : e.literals.length ≤ Run.maxLength) :
    Wrote e e.writeVarying ∧
      (e.fixedRun ≤ Run.minRepeat → e.writeVarying.fixedRun = e.fixedRun ∧
        e.writeVarying.varRun = 0) := by
  have hstores := Run.ofLiterals_stores e.signed hpos hmax
  have hne : e.literals.isEmpty = false := by
    rw [List.isEmpty_eq_false_iff, ← List.length_pos_iff]
    exact hpos
  unfold writeVarying
  rw [hne, if_neg Bool.false_ne_true]
  split
  · rename_i first step count hrun
    rw [hrun] at hstores
    have hcount : e.literals.length = count := by
      obtain ⟨-, -, hvalues⟩ := hstores
      rw [hvalues, Run.length_progression]
    rw [← hcount] at hstores
    exact writeFixedDelta_spec hstores
  · exact ⟨write_spec hstores, fun _ => ⟨rfl, rfl⟩⟩

/-! ## (4) One more value -/

/-- A window that was written is empty. -/
theorem Wrote.window (h : Wrote e e') : e'.Window := Window.empty h.2.1

/-- **The first value** is kept. -/
theorem start_spec (h : e.literals = []) : (e.start v).Window ∧ Emits e (e.start v) [v] := by
  have hliterals : (e.start v).literals = [v] := by
    rw [start, h]
    rfl
  exact ⟨Window.single v hliterals rfl rfl, Emits.silent rfl rfl hliterals⟩

/-- **The second value** tells the step. -/
theorem second_spec {first : Int64} (h : e.literals = [first]) :
    (e.second first v).Window ∧ Emits e (e.second first v) [first, v] := by
  unfold second
  dsimp only
  by_cases hv : v = first
  · rw [if_pos hv]
    have hstep : v - first = 0 := by rw [hv, Int64.sub_self]
    have hliterals : e.literals ++ [v] = List.replicate 2 first := by
      rw [h, hv]
      rfl
    refine ⟨Window.repeats first 2 (by decide) (by decide) hliterals rfl rfl hstep,
      Emits.silent rfl rfl ?_⟩
    show e.literals ++ [v] = [first, v]
    rw [h]
    rfl
  · rw [if_neg hv]
    have hliterals : e.literals ++ [v] = [] ++ [first, v] := by
      rw [h]
      rfl
    have hlength : (e.literals ++ [v]).length = 2 := by
      rw [h]
      rfl
    refine ⟨Window.varying [] first v ?_ hliterals rfl hlength.symm rfl,
      Emits.silent rfl rfl hliterals⟩
    show (e.literals ++ [v]).length < Run.maxLength
    rw [hlength]
    decide

/-- A repeat behind repeats: the window grows, and is written when it is full. -/
theorem addRepeat_of_repeats {n : Nat} (htwo : 2 ≤ n) (hmax : n < Run.maxLength)
    (hliterals : e.literals = List.replicate n v) (hfixed : e.fixedRun = n) (hvar : e.varRun = 0)
    (hstep : e.lastStep = 0) :
    (e.addRepeat v).Window ∧ Emits e (e.addRepeat v) (e.literals ++ [v]) := by
  have hgrown : e.literals ++ [v] = List.replicate (n + 1) v := by
    rw [hliterals, List.replicate_succ']
  have hadd : e.addRepeat v =
      if n + 1 = Run.maxLength then
        { e with literals := e.literals ++ [v], fixedRun := n + 1 }.writeFixedDelta v 0
      else { e with literals := e.literals ++ [v], fixedRun := n + 1 } := by
    unfold addRepeat
    simp only [hvar, hfixed, Nat.lt_irrefl, if_false, and_false]
    rw [hgrown, List.replicate_succ, List.headD_cons]
  rw [hadd]
  by_cases hfull : n + 1 = Run.maxLength
  · rw [if_pos hfull]
    have hstores : (Run.fixedDelta v 0 (e.literals ++ [v]).length).Stores e.signed
        (e.literals ++ [v]) := by
      rw [hgrown, List.length_replicate]
      exact stores_replicate (by omega) (by omega)
    have hwrote := (writeFixedDelta_spec
      (e := { e with literals := e.literals ++ [v], fixedRun := n + 1 }) hstores).1
    exact ⟨hwrote.window, hwrote.1⟩
  · rw [if_neg hfull]
    exact ⟨Window.repeats v (n + 1) (by omega) (by omega) hgrown rfl hvar hstep,
      Emits.silent rfl rfl rfl⟩

/-- The third repeat behind varying values: what stands before the repeats is written. -/
theorem addRepeat_of_varying {front : List Int64} (hmax : e.literals.length < Run.maxLength)
    (hliterals : e.literals = front ++ [v, v]) (hvar : e.varRun = e.literals.length)
    (hstep : e.lastStep = 0) :
    (e.addRepeat v).Window ∧ Emits e (e.addRepeat v) (e.literals ++ [v]) := by
  -- the last two literals and the value become a run of equal values; what is before them is
  -- written
  have hlength : e.literals.length = front.length + 2 := by
    rw [hliterals, List.length_append]
    rfl
  have hgrown : e.literals ++ [v] = front ++ [v, v, v] := by
    rw [hliterals, List.append_assoc]
    rfl
  have hsplit : (e.literals ++ [v]).length - Run.minRepeat = front.length := by
    rw [hgrown, List.length_append]
    exact Nat.add_sub_cancel _ _
  have htake : (front ++ [v, v, v]).take front.length = front := List.take_left' rfl
  have hdrop : (front ++ [v, v, v]).drop front.length = [v, v, v] := List.drop_left' rfl
  have hvarying : e.varRun - (Run.minRepeat - 1) = front.length := by
    rw [hvar, hlength]
    exact Nat.add_sub_cancel _ _
  have hthird : Run.minRepeat ≤ 2 + 1 := Nat.le_refl 3
  generalize hmade : ({ e with literals := front, fixedRun := 2 + 1, varRun := front.length } :
    RunEncoder) = varying
  have hadd : e.addRepeat v =
      if varying.writeVarying.fixedRun = Run.maxLength then
        { varying.writeVarying with
          literals := varying.writeVarying.literals ++ [v, v, v] }.writeFixedDelta
            ((varying.writeVarying.literals ++ [v, v, v]).headD 0) 0
      else { varying.writeVarying with literals := varying.writeVarying.literals ++
               [v, v, v] } := by
    have hpos : 0 < e.varRun := by omega
    unfold addRepeat
    simp only [hpos, hthird, hsplit, hvarying, and_self, if_true]
    rw [hgrown, htake, hdrop, hmade]
  -- nothing is written when there are no literals before the three
  have hwrote : Wrote varying varying.writeVarying ∧ varying.writeVarying.fixedRun = 3 ∧
      varying.writeVarying.varRun = 0 := by
    by_cases hfront : front = []
    · have hnone : varying.writeVarying = varying := by
        rw [← hmade, hfront]
        rfl
      rw [hnone, ← hmade, hfront]
      exact ⟨⟨Emits.silent rfl rfl rfl, rfl, hstep⟩, rfl, rfl⟩
    · have hfrontLength : 0 < front.length := List.length_pos_iff.mpr hfront
      obtain ⟨hw, hcounters⟩ := writeVarying_spec (e := varying)
        (by rw [← hmade]; exact hfrontLength) (by rw [← hmade]; show front.length ≤ _; omega)
      obtain ⟨hf, hv⟩ := hcounters (by rw [← hmade]; exact Nat.le_refl 3)
      exact ⟨hw, by rw [hf, ← hmade], hv⟩
  -- the window begins again with the three values
  obtain ⟨⟨⟨hsigned, bs, written, hstream, hout, hvalues⟩, hnone, hlast⟩, hthree, hzero⟩ := hwrote
  rw [hadd, hthree, if_neg (by decide), hnone, List.nil_append]
  rw [hnone, List.append_nil] at hvalues
  refine ⟨Window.repeats v 3 (by decide) (by decide) rfl hthree hzero hlast, ?_⟩
  have hsame : varying.signed = e.signed ∧ varying.output = e.output ∧
    varying.literals = front := by
    rw [← hmade]
    exact ⟨rfl, rfl, rfl⟩
  obtain ⟨hs, ho, hl⟩ := hsame
  rw [hs] at hsigned hstream
  rw [ho] at hout
  refine ⟨hsigned, bs, written, hstream, hout, ?_⟩
  rw [hvalues, hl, hgrown]

/-- A value that differs from two repeats makes them varying; behind more repeats, they are
written. -/
theorem addVarying_of_repeats {w : Int64} {n : Nat} (htwo : 2 ≤ n) (hmax : n < Run.maxLength)
    (hliterals : e.literals = List.replicate n w) (hfixed : e.fixedRun = n) (hne : v ≠ w) :
    (e.addVarying v).Window ∧ Emits e (e.addVarying v) (e.literals ++ [v]) := by
  by_cases hthree : Run.minRepeat ≤ n
  · -- the repeats are a run of their own, and the value starts the next window
    obtain ⟨⟨hsigned, bs, written, hstream, hout, hvalues⟩, hnone, -⟩ :=
      writeRepeat_spec hthree (Nat.le_of_lt hmax) hliterals hfixed
    obtain ⟨hwindow, hsigned', bs', written', hstream', hout', hvalues'⟩ :=
      start_spec (v := v) hnone
    have hadd : e.addVarying v = e.writeRepeat.start v := by
      unfold addVarying
      rw [hfixed, if_pos hthree]
      dsimp only
      rw [hnone]
      rfl
    rw [hadd]
    refine ⟨hwindow, hsigned'.trans hsigned, bs ++ bs', written ++ written', ?_, ?_, ?_⟩
    · rw [hsigned] at hstream'
      exact hstream.append hstream'
    · rw [hout', hout, List.append_assoc]
    · rw [hnone, List.append_nil] at hvalues
      rw [List.append_assoc, hvalues', hvalues]
  · have hn : n = 2 := by
      have h3 : ¬ 3 ≤ n := hthree
      omega
    -- two equal literals and another value go on as literals that vary
    subst hn
    have hpair : e.literals = [w, w] := hliterals
    have hlast : e.literals.getLast? = some w := by
      rw [hpair]
      rfl
    have hshort : 0 < 2 ∧ 2 < Run.minRepeat ∧ v ≠ w := ⟨by decide, by decide, hne⟩
    have hadd : e.addVarying v =
        { e with lastStep := v - w, literals := e.literals ++ [v], varRun := 3,
                 fixedRun := 0 } := by
      unfold addVarying
      simp only [hfixed, hthree, if_false, hlast]
      rw [if_pos hshort]
      rfl
    have hgrown : e.literals ++ [v] = [w] ++ [w, v] := by
      rw [hpair]
      rfl
    rw [hadd]
    refine ⟨Window.varying [w] w v ?_ hgrown rfl ?_ rfl, Emits.silent rfl rfl rfl⟩
    · show (e.literals ++ [v]).length < Run.maxLength
      rw [hgrown]
      show 3 < Run.maxLength
      decide
    · show 3 = (e.literals ++ [v]).length
      rw [hgrown]
      rfl

/-- A value that continues a varying window, which is written when it is full. -/
theorem addVarying_of_varying {front : List Int64} {before last : Int64}
    (hmax : e.literals.length < Run.maxLength) (hliterals : e.literals = front ++ [before, last])
    (hfixed : e.fixedRun = 0) (hvar : e.varRun = e.literals.length) :
    (e.addVarying v).Window ∧ Emits e (e.addVarying v) (e.literals ++ [v]) := by
  have hlast : e.literals.getLast? = some last := by
    rw [hliterals, List.append_cons, List.getLast?_concat]
  have hthree : ¬ Run.minRepeat ≤ 0 := by decide
  have hadd : e.addVarying v =
      if e.literals.length + 1 = Run.maxLength then
        { e with lastStep := v - last, literals := e.literals ++ [v],
                 varRun := e.literals.length + 1 }.writeVarying
      else
        { e with lastStep := v - last, literals := e.literals ++ [v],
                 varRun := e.literals.length + 1 } := by
    unfold addVarying
    simp only [hfixed, hthree, if_false, hlast, Nat.lt_irrefl, false_and, hvar]
  have hgrown : e.literals ++ [v] = front ++ [before] ++ [last, v] := by
    rw [hliterals, List.append_assoc, List.append_assoc]
    rfl
  have hlength : (e.literals ++ [v]).length = e.literals.length + 1 := by
    rw [List.length_append]
    rfl
  rw [hadd]
  -- a full window is written
  by_cases hfull : e.literals.length + 1 = Run.maxLength
  · rw [if_pos hfull]
    have hwrote := (writeVarying_spec
      (e := { e with lastStep := v - last, literals := e.literals ++ [v],
                     varRun := e.literals.length + 1 })
      (by show 0 < (e.literals ++ [v]).length; omega)
      (by show (e.literals ++ [v]).length ≤ Run.maxLength; omega)).1
    exact ⟨hwrote.window, hwrote.1⟩
  · rw [if_neg hfull]
    refine ⟨Window.varying (front ++ [before]) last v ?_ hgrown hfixed hlength.symm rfl,
      Emits.silent rfl rfl rfl⟩
    show (e.literals ++ [v]).length < Run.maxLength
    omega

/-- Numbers are the same when their difference is none. -/
theorem sub_eq_zero_iff {a b : Int64} : a - b = 0 ↔ a = b := by
  constructor
  · intro h
    have hab := Int64.sub_add_cancel a b
    rw [h, Int64.zero_add] at hab
    exact hab.symm
  · rintro rfl
    exact Int64.sub_self a

/-- **One more value** keeps the shape of the window, and is pending or in a run behind the pending
literals. -/
theorem append_spec (h : e.Window) (v : Int64) :
    (e.append v).Window ∧ Emits e (e.append v) (e.literals ++ [v]) := by
  -- the shape of the window tells which of the operations is taken
  cases h with
  | empty hliterals =>
      unfold append
      rw [hliterals]
      exact start_spec hliterals
  | single w hliterals _ _ =>
      unfold append
      rw [hliterals]
      exact second_spec hliterals
  | repeats w n htwo hmax hliterals hfixed hvar hstep =>
      -- one more of the same value, or the end of the repeats
      obtain ⟨m, rfl⟩ : ∃ m, n = m + 2 := ⟨n - 2, by omega⟩
      have hlast : (List.replicate (m + 2) w).getLastD 0 = w := by
        rw [List.replicate_succ', List.getLastD_concat]
      have happend : e.append v = if v = w then e.addRepeat v else e.addVarying v := by
        have hdiff : v - w = 0 ↔ v = w := sub_eq_zero_iff
        unfold append
        rw [hliterals, hlast]
        simp only [List.replicate_succ, hstep, true_and, hdiff]
      rw [happend]
      by_cases hv : v = w
      · rw [if_pos hv]
        rw [← hv] at hliterals
        exact addRepeat_of_repeats htwo hmax hliterals hfixed hvar hstep
      · rw [if_neg hv]
        exact addVarying_of_repeats htwo hmax hliterals hfixed hv
  | varying front before last hmax hliterals hfixed hvar hstep =>
      have hlast : e.literals.getLastD 0 = last := by
        rw [hliterals, List.append_cons, List.getLastD_concat]
      have htwo : ∃ a b tl, e.literals = a :: b :: tl := by
        rw [hliterals]
        rcases front with _ | ⟨a, _ | ⟨b, tl⟩⟩
        · exact ⟨before, last, [], rfl⟩
        · exact ⟨a, before, [last], rfl⟩
        · exact ⟨a, b, tl ++ [before, last], rfl⟩
      have happend : e.append v =
          if e.lastStep = 0 ∧ v - last = 0 then e.addRepeat v else e.addVarying v := by
        obtain ⟨a, b, tl, htl⟩ := htwo
        unfold append
        rw [hlast, htl]
      rw [happend]
      by_cases hrepeat : e.lastStep = 0 ∧ v - last = 0
      · -- the last two literals and the value are equal
        obtain ⟨hzero, hv⟩ := hrepeat
        have hvl : v = last := sub_eq_zero_iff.mp hv
        have hlb : last = before := sub_eq_zero_iff.mp (hstep ▸ hzero)
        rw [if_pos ⟨hzero, hv⟩]
        rw [← hlb, ← hvl] at hliterals
        exact addRepeat_of_varying hmax hliterals hvar hzero
      · rw [if_neg hrepeat]
        exact addVarying_of_varying hmax hliterals hfixed hvar

/-! ## (5) The end of a window -/

/-- A flush without literals does nothing. -/
theorem flush_of_empty (h : e.literals = []) : e.flush = e := by
  rw [flush, h]
  rfl

/-- **A flush** writes all pending literals. -/
theorem flush_spec (h : e.Window) : Emits e e.flush e.literals ∧ e.flush.literals = [] := by
  by_cases hnone : e.literals = []
  · rw [flush_of_empty hnone]
    exact ⟨Emits.silent rfl rfl rfl, hnone⟩
  · have hpos : 0 < e.literals.length := List.length_pos_iff.mpr hnone
    have hpending : e.literals.isEmpty = false := List.isEmpty_eq_false_iff.mpr hnone
    have hmax : e.literals.length ≤ Run.maxLength := Nat.le_of_lt h.length_lt
    have hvarying := (writeVarying_spec hpos hmax).1
    unfold flush
    rw [hpending, if_neg Bool.false_ne_true]
    cases h with
    | empty hliterals => exact absurd hliterals hnone
    | single w _ _ hvar =>
        rw [if_pos (by omega)]
        exact ⟨hvarying.1, hvarying.2.1⟩
    | repeats w n htwo hmax' hliterals hfixed hvar hstep =>
        rw [if_neg (by omega), if_neg (by omega)]
        by_cases hthree : e.fixedRun < Run.minRepeat
        · rw [if_pos hthree]
          have hwrote := (writeVarying_spec
            (e := { e with varRun := e.fixedRun, fixedRun := 0 }) hpos hmax).1
          exact ⟨hwrote.1, hwrote.2.1⟩
        · rw [if_neg hthree]
          have hwrote := writeRepeat_spec (by omega) (Nat.le_of_lt hmax') hliterals hfixed
          exact ⟨hwrote.1, hwrote.2.1⟩
    | varying front before last _ _ _ hvar _ =>
        rw [if_pos (by omega)]
        exact ⟨hvarying.1, hvarying.2.1⟩

/-! ## (6) Sequences of calls -/

/-- **A call** of an encoder. -/
inductive Call
  /-- One more value. -/
  | append (v : Int64)
  /-- The end of the window. -/
  | flush

/-- What a call makes of an encoder. -/
def call (e : RunEncoder) : Call → RunEncoder
  | .append v => e.append v
  | .flush => e.flush

/-- **A sequence of calls** on a new encoder. -/
def run (signed : Bool) (calls : List Call) : RunEncoder := calls.foldl call { signed }

/-- The values that a sequence of calls appends. -/
def appended : List Call → List Int64
  | [] => []
  | .append v :: rest => v :: appended rest
  | .flush :: rest => appended rest

/-- What is appended by calls is behind what was appended by those before them. -/
theorem appended_append (calls more : List Call) :
    appended (calls ++ more) = appended calls ++ appended more := by
  induction calls with
  | nil => rfl
  | cons c rest ih =>
      cases c with
      | append v => rw [List.cons_append, appended, appended, ih, List.cons_append]
      | flush => rw [List.cons_append, appended, appended, ih]

/-- **One call** keeps the shape of the window, and writes runs behind the bytes written before. -/
theorem call_spec (h : e.Window) (c : Call) :
    (e.call c).Window ∧ Emits e (e.call c) (e.literals ++ appended [c]) := by
  cases c with
  | append v => exact append_spec h v
  | flush =>
      obtain ⟨hemits, hnone⟩ := flush_spec h
      refine ⟨Window.empty hnone, ?_⟩
      rw [appended, appended, List.append_nil]
      exact hemits

/-- Changes that follow each other write what both write. -/
theorem Emits.trans {e₁ e₂ e₃ : RunEncoder} {more : List Int64}
    (h : Emits e₁ e₂ (e₁.literals ++ more)) {pending : List Int64}
    (h' : Emits e₂ e₃ (e₂.literals ++ pending)) :
    Emits e₁ e₃ (e₁.literals ++ (more ++ pending)) := by
  obtain ⟨hsigned, bs, written, hstream, hout, hvalues⟩ := h
  obtain ⟨hsigned', bs', written', hstream', hout', hvalues'⟩ := h'
  refine ⟨hsigned'.trans hsigned, bs ++ bs', written ++ written', ?_, ?_, ?_⟩
  · rw [hsigned] at hstream'
    exact hstream.append hstream'
  · rw [hout', hout, List.append_assoc]
  · rw [List.append_assoc, hvalues', ← List.append_assoc, hvalues, List.append_assoc]

/-- **A sequence of calls** keeps the shape of the window, and writes runs behind the bytes written
before. -/
theorem calls_spec (calls : List Call) (h : e.Window) :
    (calls.foldl call e).Window ∧ Emits e (calls.foldl call e) (e.literals ++ appended calls) := by
  induction calls generalizing e with
  | nil =>
      rw [appended, List.append_nil]
      exact ⟨h, Emits.silent rfl rfl rfl⟩
  | cons c rest ih =>
      obtain ⟨hwindow, hemits⟩ := call_spec h c
      obtain ⟨hwindow', hemits'⟩ := ih hwindow
      have happended := appended_append [c] rest
      rw [List.singleton_append] at happended
      rw [List.foldl_cons, happended]
      exact ⟨hwindow', hemits.trans hemits'⟩

/-- A new encoder has an empty window. -/
theorem window_new (signed : Bool) : Window { signed } := Window.empty rfl

/-- **What a sequence of calls leaves**: runs that store all values but the pending ones. -/
theorem run_spec (signed : Bool) (calls : List Call) :
    (run signed calls).Window ∧ (run signed calls).signed = signed ∧
      ∃ written, Run.Stream signed (run signed calls).output written ∧
        written ++ (run signed calls).literals = appended calls := by
  obtain ⟨hwindow, hsigned, bs, written, hstream, hout, hvalues⟩ :=
    calls_spec calls (window_new signed)
  refine ⟨hwindow, hsigned, written, ?_, hvalues⟩
  have hbs : (run signed calls).output = bs := hout
  rw [hbs]
  exact hstream

/-- **The stream of the encoder**: after any calls, reading the bytes written so far succeeds and
gives the appended values up to the pending literals, which are fewer than the longest run; a flush
leaves none pending, a second one changes nothing, and no later call changes a byte that was
written. -/
theorem run_stream (signed : Bool) (calls : List Call) :
    (∃ written, Run.readAll signed (run signed calls).output = .ok written ∧
        written ++ (run signed calls).literals = appended calls) ∧
      (run signed calls).literals.length ≤ 511 ∧
      (run signed (calls ++ [.flush])).literals = [] ∧
      run signed (calls ++ [.flush, .flush]) = run signed (calls ++ [.flush]) ∧
      ∀ more, (run signed calls).output <+: (run signed (calls ++ more)).output := by
  obtain ⟨hwindow, -, written, hstream, hvalues⟩ := run_spec signed calls
  have hflush : run signed (calls ++ [.flush]) = (run signed calls).flush := by
    rw [run, List.foldl_append]
    rfl
  have hflush₂ : run signed (calls ++ [.flush, .flush]) = (run signed calls).flush.flush := by
    rw [run, List.foldl_append]
    rfl
  have hnone := (flush_spec hwindow).2
  refine ⟨⟨written, Run.readAll_of_stream hstream, hvalues⟩, ?_, ?_, ?_, ?_⟩
  · exact Nat.le_of_lt_succ hwindow.length_lt
  · rw [hflush, hnone]
  · rw [hflush, hflush₂, flush_of_empty hnone]
  · intro more
    obtain ⟨-, -, bs, -, -, hout, -⟩ := calls_spec more hwindow
    refine ⟨bs, ?_⟩
    rw [← hout, run, run, List.foldl_append]

/-- **The stream of a list** of values consists of runs that store them. -/
theorem encodeAll_stream (signed : Bool) (values : List Int64) :
    Run.Stream signed (encodeAll signed values) values := by
  have happended : ∀ vs : List Int64, appended (vs.map .append ++ [.flush]) = vs := by
    intro vs
    induction vs with
    | nil => rfl
    | cons v rest ih => rw [List.map_cons, List.cons_append, appended, ih]
  have hrun : run signed (values.map .append ++ [.flush]) =
    (values.foldl append { signed }).flush := by
    rw [run, List.foldl_append, List.foldl_map]
    rfl
  obtain ⟨-, -, written, hstream, hvalues⟩ := run_spec signed (values.map .append ++ [.flush])
  have hnone := (flush_spec (run_spec signed (values.map .append)).1).2
  have hlast : (run signed (values.map .append ++ [.flush])).literals = [] := by
    rw [run, List.foldl_append]
    exact hnone
  rw [hlast, List.append_nil, happended] at hvalues
  rw [hvalues, hrun] at hstream
  exact hstream

end RunEncoder

end ColumnFile
