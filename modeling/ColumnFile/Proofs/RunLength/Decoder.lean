import ColumnFile.Proofs.RunLength.Encoder

/-! # The decoder gives the values in pieces

A decoder may be stopped and asked again anywhere; what it has still to give is the values pending
from its last run and those of the runs ahead.

* **`RunDecoder.Remaining`** — the values that a decoder has still to give; `hasMore_eq` says when
  there are any.
* **`RunDecoder.next_spec`** — the next value is the first of those.
* **`RunDecoder.draw`**, **`RunDecoder.draw_spec`** — values are drawn off the front, and only as
  many as there are; `draw_pending` — those that are pending come first; `take_eq_draw` — values
  that are taken.
* **`RunDecoder.take_encodeAll`** — a list that was encoded is taken whole. -/

namespace ColumnFile

namespace RunDecoder

variable {d : RunDecoder} {values : List Int64}

/-! ## (1) What remains -/

/-- **The values that a decoder has still to give**: those pending and those of the runs ahead. -/
def Remaining (d : RunDecoder) (values : List Int64) : Prop :=
  ∃ ahead, Run.readAll d.signed d.rest = .ok ahead ∧ values = d.pending ++ ahead

/-- The start of a stream has all values ahead. -/
theorem remaining_ofBytes {signed : Bool} {bs : Bytes} (h : Run.readAll signed bs = .ok values) :
    (ofBytes signed bs).Remaining values := ⟨values, h, rfl⟩

/-- **The first run of a stream that is read to its end** gives some value. -/
theorem first_run {signed : Bool} {bs : Bytes} (hne : bs ≠ [])
    (h : Run.readAll signed bs = .ok values) :
    ∃ v front ahead rest, Run.read signed bs = .ok (v :: front, rest) ∧
      Run.readAll signed rest = .ok ahead ∧ values = v :: (front ++ ahead) := by
  rw [Run.readAll, if_neg hne] at h
  split at h
  · cases h
  · rename_i stored rest hread
    obtain ⟨ahead, hahead, rfl⟩ := map_eq_ok h
    cases stored with
    | nil => exact absurd (Run.measured_read hread).nonempty (Nat.not_succ_le_zero 0)
    | cons v front => exact ⟨v, front, ahead, rest, hread, hahead, rfl⟩

/-- **There are more values** exactly while some remain. -/
theorem hasMore_eq (h : d.Remaining values) : d.hasMore = !values.isEmpty := by
  obtain ⟨ahead, hahead, rfl⟩ := h
  rw [hasMore]
  cases hpending : d.pending with
  | cons v pending => rfl
  | nil =>
      by_cases hrest : d.rest = []
      · rw [hrest, Run.readAll, if_pos rfl] at hahead
        cases hahead
        rw [hrest]
        rfl
      · obtain ⟨v, front, ahead', rest, -, -, rfl⟩ := first_run hrest hahead
        have hmore : d.rest.isEmpty = false := List.isEmpty_eq_false_iff.mpr hrest
        rw [hmore]
        rfl

/-! ## (2) One value -/

/-- **The next value** is the first of those to give. -/
theorem next_spec {v : Int64} (h : d.Remaining (v :: values)) :
    ∃ d', d.next = .ok (v, d') ∧ d'.Remaining values := by
  obtain ⟨ahead, hahead, hvalues⟩ := h
  unfold next
  cases hpending : d.pending with
  | cons w pending =>
      rw [hpending, List.cons_append, List.cons.injEq] at hvalues
      obtain ⟨rfl, rfl⟩ := hvalues
      exact ⟨{ d with pending }, rfl, ahead, hahead, rfl⟩
  | nil =>
      rw [hpending, List.nil_append] at hvalues
      subst hvalues
      have hne : d.rest ≠ [] := by
        intro hnil
        rw [hnil, Run.readAll, if_pos rfl] at hahead
        cases hahead
      obtain ⟨w, front, ahead', rest, hread, hrest, hvalues⟩ := first_run hne hahead
      rw [List.cons.injEq] at hvalues
      obtain ⟨rfl, rfl⟩ := hvalues
      refine ⟨{ d with rest, pending := front }, ?_, ahead', hrest, rfl⟩
      dsimp only
      rw [hread]

/-- **Behind the last value** there is no next one. -/
theorem next_end (h : d.Remaining []) : d.next = .error .runTruncated := by
  obtain ⟨ahead, hahead, hnone⟩ := h
  obtain ⟨hpending, rfl⟩ := List.append_eq_nil_iff.mp hnone.symm
  have hrest : d.rest = [] := by
    by_contra hne
    obtain ⟨v, front, ahead', rest, -, -, hvalues⟩ := first_run hne hahead
    cases hvalues
  unfold next
  rw [hpending, hrest]
  rfl

/-- **A run is read** for the next value when no values are pending; it has some. -/
theorem next_of_read {rest : Bytes} {vs : List Int64} (hnone : d.pending = [])
    (hread : Run.read d.signed d.rest = .ok (vs, rest)) (hsome : vs ≠ []) :
    d.next = next { d with rest, pending := vs } := by
  cases vs with
  | nil => exact absurd rfl hsome
  | cons v vs =>
      unfold next
      rw [hnone]
      dsimp only
      rw [hread]

/-! ## (3) Any number of values -/

/-- **Values are drawn** one by one: whether there were as many as asked for, those that there were,
and the decoder behind them. -/
def draw : (n : Nat) → RunDecoder → Except Fault Unit × List Int64 × RunDecoder
  | 0, d => (.ok (), [], d)
  | n + 1, d =>
    match d.next with
    | .error e => (.error e, [], d)
    | .ok (v, d) =>
      let (outcome, vs, d) := draw n d
      (outcome, v :: vs, d)

/-- Values are taken if all of them can be drawn. -/
theorem take_eq_draw (n : Nat) (d : RunDecoder) :
    take n d = (draw n d).1.map fun _ => (draw n d).2 := by
  induction n generalizing d with
  | zero => rfl
  | succ n ih =>
      rw [take, draw]
      cases hnext : d.next with
      | error e => rfl
      | ok p =>
          obtain ⟨v, d'⟩ := p
          rw [ok_bind]
          dsimp only
          rw [ih d']
          cases (draw n d').1 <;> rfl

/-- **Values are drawn** off the front of those to give, as far as there are any. -/
theorem draw_spec (h : d.Remaining values) (n : Nat) :
    (draw n d).1 = (if n ≤ values.length then .ok () else .error .runTruncated) ∧
      (draw n d).2.1 = values.take n ∧ (draw n d).2.2.Remaining (values.drop n) := by
  induction n generalizing d values with
  | zero => exact ⟨(if_pos (Nat.zero_le _)).symm, rfl, h⟩
  | succ n ih =>
      rw [draw]
      cases values with
      | nil =>
          rw [next_end h]
          exact ⟨rfl, rfl, h⟩
      | cons v values =>
          obtain ⟨d', hnext, h'⟩ := next_spec h
          obtain ⟨houtcome, hvalues, hbehind⟩ := ih h'
          rw [hnext]
          refine ⟨?_, congrArg (v :: ·) hvalues, hbehind⟩
          rw [List.length_cons]
          by_cases hn : n ≤ values.length
          · rw [if_pos (Nat.succ_le_succ hn)]
            exact houtcome.trans (if_pos hn)
          · rw [if_neg fun hle => hn (Nat.le_of_succ_le_succ hle)]
            exact houtcome.trans (if_neg hn)

/-- **Values that are pending** are drawn before the others. By induction on their number. -/
theorem draw_pending {count : Nat} (h : count ≤ d.pending.length) (m : Nat) :
    draw (count + m) d =
      ((draw m { d with pending := d.pending.drop count }).1,
        d.pending.take count ++ (draw m { d with pending := d.pending.drop count }).2.1,
        (draw m { d with pending := d.pending.drop count }).2.2) := by
  induction count generalizing d with
  | zero => rw [Nat.zero_add]; rfl
  | succ count ih =>
      obtain ⟨signed, rest, pending⟩ := d
      cases pending with
      | nil => exact absurd h (Nat.not_succ_le_zero count)
      | cons v pending =>
          have hrest := ih (d := { signed, rest, pending }) (Nat.le_of_succ_le_succ h)
          rw [Nat.succ_add, draw]
          show (let (outcome, vs, d) := draw (count + m) { signed, rest, pending }
            (outcome, v :: vs, d)) = _
          rw [hrest]
          rfl

/-- As many values are taken as were asked for, of any stream. -/
theorem length_take {n : Nat} {d d' : RunDecoder} {vs : List Int64} (h : take n d = .ok (vs, d')) :
    vs.length = n := by
  induction n generalizing d vs with
  | zero =>
      cases h
      rfl
  | succ n ih =>
      obtain ⟨⟨v, next⟩, -, hrest⟩ := bind_eq_ok h
      obtain ⟨⟨vs', last⟩, htake, hcons⟩ := bind_eq_ok hrest
      cases hcons
      exact congrArg Nat.succ (ih htake)

/-- **A list that was encoded** is taken whole. -/
theorem take_encodeAll (signed : Bool) (values : List Int64) :
    ∃ d, take values.length (ofBytes signed (RunEncoder.encodeAll signed values)) =
      .ok (values, d) := by
  have hread := Run.readAll_of_stream (RunEncoder.encodeAll_stream signed values)
  obtain ⟨houtcome, hvalues, -⟩ := draw_spec (remaining_ofBytes hread) values.length
  rw [if_pos (Nat.le_refl _)] at houtcome
  rw [List.take_length] at hvalues
  refine ⟨(draw values.length (ofBytes signed (RunEncoder.encodeAll signed values))).2.2, ?_⟩
  rw [take_eq_draw, houtcome]
  exact congrArg Except.ok (Prod.ext hvalues rfl)

end RunDecoder

end ColumnFile
