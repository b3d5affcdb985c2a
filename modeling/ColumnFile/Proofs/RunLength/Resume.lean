import ColumnFile.Proofs.Bitmap
import ColumnFile.Proofs.RunLength.Decoder
import ColumnFile.Proofs.RunLength.Machine

/-! # Requests to a decoder

A decoder is asked for one value, for some values, to skip some, or for as many as a bitmap marks in
a range of rows, again and again and in any order. Its loop takes the values in chunks, each of them
what is left of a run or a part of that; they are the values that it gives one by one. A plain list
with a place in it gives the same answers: each request takes its share off the front of what is
left, and one that asks for more than that fails. Only a request for so many values that there is no
memory for them stops the program.

* **`MachineDecoder.StandsFor`** — a decoder on a machine and one on numbers with the same values to
  give.
* **`MachineDecoder.inChunks_spec`** — the loop over the chunks, of any stream.
* **`MachineDecoder.Request`** — the requests; `count`, how many values each of them is about, and
  `asked`, the memory that it asks for.
* **`MachineDecoder.answers`**, **`MachineDecoder.listAnswers`** — what a decoder answers, and what
  the list answers.
* **`MachineDecoder.answers_eq_listAnswers`** — any requests to a stream that can be read to its
  end. -/

namespace ColumnFile

namespace MachineDecoder

open Machine

/-! ## (1) Values in chunks -/

/-- **A decoder on a machine stands for one on numbers**: it is within range, and has the same
values to give from the last run and from those ahead. -/
structure StandsFor (d : MachineDecoder) (r : RunDecoder) : Prop where
  within : d.Within
  signed : r.signed = d.signed
  rest : r.rest = d.src.drop d.pos
  pending : r.pending = d.literals.drop d.used

variable {d : MachineDecoder} {r : RunDecoder}

section Chunks

variable {α : Type} {deal : MachineDecoder → Nat → α → Except Stop α} {gives : α → List Int64 → α}
  {turns remaining count n : Nat} {a : α} {out : List Int64}

/-- Both have more values, or neither has. -/
theorem StandsFor.hasMore (h : StandsFor d r) : d.hasMore = r.hasMore := by
  have hpending : (!(d.literals.drop d.used).isEmpty) = decide (d.used < d.literals.length) := by
    rw [Bool.eq_iff_iff, Bool.not_eq_true', List.isEmpty_eq_false_iff, Ne, List.drop_eq_nil_iff,
      decide_eq_true_eq, Nat.not_le]
  have hrest : (!(d.src.drop d.pos).isEmpty) = decide (d.pos < d.src.length) := by
    rw [Bool.eq_iff_iff, Bool.not_eq_true', List.isEmpty_eq_false_iff, Ne, List.drop_eq_nil_iff,
      decide_eq_true_eq, Nat.not_le]
  rw [MachineDecoder.hasMore, RunDecoder.hasMore, h.pending, h.rest, hpending, hrest]

/-- The values that are left of the last run. -/
theorem StandsFor.length_pending (h : StandsFor d r) :
    r.pending.length = d.literals.length - d.used := by
  rw [h.pending, List.length_drop]

/-- **A run is read for the next value**, if none is left of the last one. -/
theorem StandsFor.refill (h : StandsFor d r) :
    (∃ e, r.next = .error e ∧ d.refill = .error (.fault e) ∧ StandsFor d.unread r) ∨
      ∃ d' r', d.refill = .ok d' ∧ StandsFor d' r' ∧ r'.pending ≠ [] ∧ r.next = r'.next := by
  by_cases hnone : d.used = d.literals.length
  · have hempty : r.pending = [] := by rw [h.pending, hnone, List.drop_length]
    rcases refill_spec h.within hnone with ⟨e, hread, hrefill⟩ |
      ⟨values, pos, hread, hrefill, hend, hsome, hmost, -⟩
    · refine .inl ⟨e, ?_, hrefill, ⟨h.within.src, h.within.pos, Nat.le_refl _, Nat.zero_le _⟩,
        h.signed, h.rest, hempty⟩
      unfold RunDecoder.next
      rw [hempty, h.signed, h.rest, hread]
    · rw [← h.signed, ← h.rest] at hread
      exact .inr ⟨_, { r with rest := d.src.drop pos, pending := values }, hrefill,
        ⟨⟨h.within.src, hend, Nat.zero_le _, hmost⟩, h.signed, rfl, rfl⟩,
        List.ne_nil_of_length_pos hsome,
        RunDecoder.next_of_read hempty hread (List.ne_nil_of_length_pos hsome)⟩
  · refine .inr ⟨d, r, by rw [MachineDecoder.refill, if_neg hnone], h, ?_, rfl⟩
    have hused := h.within.used
    rw [h.pending, Ne, List.drop_eq_nil_iff]
    omega

/-- **Values of the last run are passed over**. -/
theorem StandsFor.advance (h : StandsFor d r) (hcount : count ≤ r.pending.length) :
    StandsFor { d with used := d.used + count } { r with pending := r.pending.drop count } := by
  have hused := h.within.used
  rw [h.length_pending] at hcount
  refine ⟨⟨h.within.src, h.within.pos, ?_, h.within.literals⟩, h.signed, h.rest, ?_⟩
  · show d.used + count ≤ d.literals.length
    omega
  · show r.pending.drop count = d.literals.drop (d.used + count)
    rw [h.pending, List.drop_drop]

/-- **What is done with the values** of a run that are next: they are handed over, and values that
are handed over in turn are handed over together. -/
structure Deals (deal : MachineDecoder → Nat → α → Except Stop α) (gives : α → List Int64 → α) :
    Prop where
  each : ∀ (d : MachineDecoder) (count : Nat) (a : α), d.Within →
    d.used + count ≤ d.literals.length →
    deal d count a = .ok (gives a ((d.literals.drop d.used).take count))
  none : ∀ a, gives a [] = a
  append : ∀ a vs ws, gives (gives a vs) ws = gives a (vs ++ ws)

/-- Values are put behind others. -/
theorem deals_copy : Deals copy (· ++ ·) where
  each d count a hwithin hle := by
    have hmost := hwithin.literals
    rw [copy, add_eq (by omega), ok_bind, slice, if_pos ⟨Nat.le_add_right _ _, hle⟩,
      Nat.add_sub_cancel_left]
    rfl
  none := List.append_nil
  append := List.append_assoc

/-- Values are dropped. -/
theorem deals_drop : Deals (fun _ _ => .ok) fun (u : Unit) _ => u :=
  ⟨fun _ _ _ _ _ => rfl, fun _ => rfl, fun _ _ _ => rfl⟩

/-- **One chunk** is what is left of the last run, or as much of it as is asked for. -/
theorem chunk_eq (hdeal : Deals deal gives) (h : StandsFor d r) :
    chunk deal d remaining a =
      .ok (remaining - min remaining r.pending.length,
        gives a (r.pending.take (min remaining r.pending.length)),
        { d with used := d.used + min remaining r.pending.length }) := by
  have hused := h.within.used
  have hmost := h.within.literals
  rw [h.length_pending, h.pending, chunk, sub_eq hused, ok_bind]
  dsimp only
  rw [hdeal.each d _ a h.within (by omega), ok_bind, add_eq (by omega), ok_bind, sub_eq (by omega)]
  rfl

/-- **The loop over the chunks** gives what drawing the values one by one gives, of any stream, and
is done in as many turns as there are values to give. By induction on the turns. -/
theorem inChunks_spec (hdeal : Deals deal gives) (h : StandsFor d r) (hturns : remaining ≤ turns) :
    ∃ d', inChunks deal turns remaining a d =
        ((r.draw remaining).1.mapError .fault, gives a (r.draw remaining).2.1, d') ∧
      StandsFor d' (r.draw remaining).2.2 := by
  -- chunk after chunk; each takes what is left of a run, and at least one value
  induction turns generalizing remaining a d r with
  | zero =>
      obtain rfl : remaining = 0 := Nat.le_zero.mp hturns
      exact ⟨d, by rw [inChunks, RunDecoder.draw, hdeal.none]; rfl, h⟩
  | succ turns ih =>
      cases remaining with
      | zero => exact ⟨d, by rw [inChunks, RunDecoder.draw, hdeal.none]; rfl, h⟩
      | succ remaining =>
          rw [inChunks, if_neg (Nat.succ_ne_zero remaining)]
          rcases h.refill with ⟨e, hnext, hrefill, hunread⟩ | ⟨d₁, r₁, hrefill, h₁, hsome, hnext⟩
          · -- no run can be read, so there is no next value
            rw [hrefill, RunDecoder.draw, hnext]
            exact ⟨d.unread, by rw [hdeal.none]; rfl, hunread⟩
          · have hdraw : r.draw (remaining + 1) = r₁.draw (remaining + 1) := by
              obtain ⟨v, vs, hpending⟩ := List.exists_cons_of_ne_nil hsome
              have hfirst : r₁.next = .ok (v, { r₁ with pending := vs }) := by
                rw [RunDecoder.next, hpending]
              rw [RunDecoder.draw, RunDecoder.draw, hnext, hfirst]
            have hpositive := List.length_pos_of_ne_nil hsome
            have hchunk :=
              RunDecoder.draw_pending (Nat.min_le_right (remaining + 1) r₁.pending.length)
              (remaining + 1 - min (remaining + 1) r₁.pending.length)
            rw [Nat.add_sub_cancel' (Nat.min_le_left _ _)] at hchunk
            rw [hrefill, hdraw, hchunk]
            dsimp only
            rw [chunk_eq hdeal h₁]
            dsimp only
            have hfewer : remaining + 1 - min (remaining + 1) r₁.pending.length ≤ turns := by omega
            obtain ⟨d', hloop, hbehind⟩ := ih (h₁.advance (Nat.min_le_right _ _)) hfewer
            exact ⟨d', by rw [hloop, hdeal.append], hbehind⟩

/-- **Values are read** as they are drawn one by one, if there is memory for them. -/
theorem read_spec (h : StandsFor d r) (hmemory : 8 * (out.length + n) ≤ limit) :
    ∃ d', d.read n out = ((r.draw n).1.mapError .fault, out ++ (r.draw n).2.1, d') ∧
      StandsFor d' (r.draw n).2.2 := by
  rw [read, allocate_eq hmemory]
  exact inChunks_spec deals_copy h (Nat.le_refl n)

/-- Without memory for them nothing is read. -/
theorem read_stops (hmemory : limit < 8 * (out.length + n)) :
    d.read n out = (.error (.trap .capacity), out, d) := by
  rw [read, allocate_capacity hmemory]

/-- **Values are skipped** as they are drawn one by one. -/
theorem skip_spec (h : StandsFor d r) (n : Nat) :
    ∃ d', d.skip n = ((r.draw n).1.mapError .fault, d') ∧ StandsFor d' (r.draw n).2.2 := by
  obtain ⟨d', hloop, hbehind⟩ := inChunks_spec (a := ()) deals_drop h (Nat.le_refl n)
  exact ⟨d', by rw [skip, hloop], hbehind⟩

end Chunks

/-! ## (2) Requests -/

/-- A **request** to a decoder. -/
inductive Request
  /-- The next value. -/
  | next
  /-- The next values, behind those that a list holds already. -/
  | read (out : List Int64) (count : Nat)
  /-- To drop the next values. -/
  | skip (count : Nat)
  /-- The values of the rows from `start` up to but not including `stop` that a bitmap marks. -/
  | readNotNull (out : List Int64) (notNull : Bitmap) (marks : List Bool)
      (made : notNull.Made marks)
    (start stop : Nat)

/-- An **answer** to a request. -/
structure Answer where
  /-- Whether the request was met. -/
  outcome : Except Fault Unit
  /-- The values that were handed out, behind those that were there. -/
  out : List Int64
  /-- Whether there are more values. -/
  more : Bool
deriving DecidableEq

namespace Request

/-- How many values a request is about. -/
def count : Request → Nat
  | next => 1
  | read _ count => count
  | skip count => count
  | readNotNull _ _ marks _ start stop => ((marks.take stop).drop start).countP id

/-- The octets that a request asks for before anything is read. -/
def asked : Request → Nat
  | next => 0
  | read out count => 8 * (out.length + count)
  | skip _ => 0
  | readNotNull out _ marks _ start stop =>
    8 * (out.length + ((marks.take stop).drop start).countP id)

/-- What a request hands out of the values that it gets. -/
def handOut : Request → List Int64 → List Int64
  | next, values => values
  | read out _, values => out ++ values
  | skip _, _ => []
  | readNotNull out _ _ _ _ _, values => out ++ values

end Request

/-- What comes of a call: whether the request was met, what was handed out, and the decoder behind
it. -/
def call (d : MachineDecoder) : Request → Except Stop Unit × List Int64 × MachineDecoder
  | .next =>
    match d.next with
    | .error stop => (.error stop, [], d.unread)
    | .ok (v, d) => (.ok (), [v], d)
  | .read out count => d.read count out
  | .skip count =>
    let (outcome, d) := d.skip count
    (outcome, [], d)
  | .readNotNull out notNull _ _ start stop =>
    let (outcome, out, d) := d.readNotNull notNull start stop out
    (outcome.map fun _ => (), out, d)

/-- The answers to requests made in turn, unless one of them stops the program. -/
def answers : MachineDecoder → List Request → Except Trap (List Answer)
  | _, [] => .ok []
  | d, r :: requests => do
    let (outcome, out, d) := d.call r
    let outcome ← answer outcome
    let rest ← answers d requests
    return { outcome, out, more := d.hasMore } :: rest

/-- **What a list answers** to requests made in turn: each of them gets the values at the front of
what is left, and is met if these are as many as it asks for. -/
def listAnswers : List Int64 → List Request → List Answer
  | _, [] => []
  | values, r :: requests =>
    { outcome := if r.count ≤ values.length then .ok () else .error .runTruncated
      out := r.handOut (values.take r.count)
      more := !(values.drop r.count).isEmpty } :: listAnswers (values.drop r.count) requests

/-! ## (3) One request -/

/-- **One value** is given as it is drawn. -/
theorem next_spec (h : StandsFor d r) :
    ∃ d', d.call .next = ((r.draw 1).1.mapError .fault, (r.draw 1).2.1, d') ∧
      StandsFor d' (r.draw 1).2.2 := by
  rw [call, next, RunDecoder.draw]
  rcases h.refill with ⟨e, hnext, hrefill, hunread⟩ | ⟨d₁, r₁, hrefill, h₁, hsome, hnext⟩
  · rw [hrefill, hnext]
    exact ⟨d.unread, rfl, hunread⟩
  · obtain ⟨v, vs, hpending⟩ := List.exists_cons_of_ne_nil hsome
    have hcount : 1 ≤ r₁.pending.length := List.length_pos_of_ne_nil hsome
    have hadvanced := h₁.advance hcount
    have hused : d₁.used < d₁.literals.length := by
      rw [h₁.length_pending] at hcount
      omega
    have hfirst : d₁.literals[d₁.used] = v := by
      have hdrop := h₁.pending
      rw [hpending, List.drop_eq_getElem_cons hused, List.cons.injEq] at hdrop
      exact hdrop.1.symm
    have hgiven : r₁.next = .ok (v, { r₁ with pending := vs }) := by rw [RunDecoder.next, hpending]
    have hmost := h₁.within.literals
    rw [hpending, List.drop_one, List.tail_cons] at hadvanced
    rw [hrefill, ok_bind, entry, List.getElem?_eq_getElem hused, hnext, hgiven, hfirst]
    dsimp only
    rw [ok_bind, add_eq (by omega)]
    exact ⟨_, rfl, hadvanced⟩

/-- **Every request** gets what is drawn, one by one, if there is memory for it. -/
theorem call_spec (h : StandsFor d r) (request : Request) (hmemory : request.asked ≤ limit) :
    ∃ d', d.call request = ((r.draw request.count).1.mapError .fault,
        request.handOut (r.draw request.count).2.1, d') ∧
      StandsFor d' (r.draw request.count).2.2 := by
  cases request with
  | next => exact next_spec h
  | read out count => exact read_spec h hmemory
  | skip count =>
      obtain ⟨d', hskip, hbehind⟩ := skip_spec h count
      exact ⟨d', by rw [call, hskip]; rfl, hbehind⟩
  | readNotNull out notNull marks made start stop =>
      obtain ⟨rfl, hword⟩ := made.eq_ofList
      obtain ⟨d', hread, hbehind⟩ := read_spec h hmemory
      refine ⟨d', ?_, hbehind⟩
      rw [call, readNotNull, countBits_ofList hword]
      dsimp only
      rw [hread, Request.count]
      dsimp only
      cases (r.draw (((marks.take stop).drop start).countP id)).1 <;> rfl

/-- **Without memory** nothing is read. -/
theorem call_stops (request : Request) (hmemory : limit < request.asked) :
    (d.call request).1 = .error (.trap .capacity) := by
  cases request with
  | next | skip _ => exact absurd hmemory (Nat.not_lt_zero _)
  | read out count => rw [call, read_stops hmemory]
  | readNotNull out notNull marks made start stop =>
      obtain ⟨rfl, hword⟩ := made.eq_ofList
      rw [call, readNotNull, countBits_ofList hword]
      dsimp only
      rw [read_stops hmemory]
      rfl

/-! ## (4) Any requests -/

variable {values : List Int64}

/-- **Any requests** are answered as the list of the values that remain answers them, or stop the
program for want of memory. By induction on the requests. -/
theorem answers_spec (h : StandsFor d r) (hvalues : r.Remaining values) (requests : List Request) :
    d.answers requests =
      if ∀ request ∈ requests, request.asked ≤ limit then .ok (listAnswers values requests)
      else .error .capacity := by
  -- request after request; the first for which there is no memory stops the program
  induction requests generalizing d r values with
  | nil => exact (if_pos fun _ hnone => absurd hnone List.not_mem_nil).symm
  | cons request requests ih =>
      rw [answers]
      by_cases hmemory : request.asked ≤ limit
      · obtain ⟨d', hcall, hbehind⟩ := call_spec h request hmemory
        obtain ⟨houtcome, hdrawn, hleft⟩ := RunDecoder.draw_spec hvalues request.count
        have hmore : d'.hasMore = !(values.drop request.count).isEmpty :=
          hbehind.hasMore.trans (RunDecoder.hasMore_eq hleft)
        have hhead : (∀ request' ∈ request :: requests, request'.asked ≤ limit) ↔
            ∀ request' ∈ requests, request'.asked ≤ limit := by
          rw [List.forall_mem_cons]
          exact and_iff_right hmemory
        have houtcome' : answer ((r.draw request.count).1.mapError .fault) =
            .ok (if request.count ≤ values.length then .ok () else .error .runTruncated) := by
          rw [houtcome]
          split <;> rfl
        rw [hcall]
        dsimp only
        rw [houtcome', ok_bind, ih hbehind hleft, hmore, hdrawn, listAnswers]
        simp only [hhead]
        split <;> rfl
      · have hnot : ¬ ∀ request' ∈ request :: requests, request'.asked ≤ limit :=
          fun hall => hmemory (hall request List.mem_cons_self)
        rw [if_neg hnot]
        have hstop := call_stops (d := d) request (Nat.not_le.mp hmemory)
        generalize d.call request = came at hstop
        obtain ⟨outcome, out, d'⟩ := came
        cases hstop
        rfl

/-- **A decoder answers as a list does.** When all values of a stream can be read, a decoder at its
start has more exactly if there are any. It answers any requests as the list of the values: with the
next slice, behind what there was, while that many values are left, with nothing handed out for what
is skipped, and with a failure beyond the last value; after each request it has more exactly while
values are left. The program stops if one of the requests asks for more memory than there can be,
and for nothing else. -/
theorem answers_eq_listAnswers {signed : Bool} {src : Bytes} (hsrc : src.length < 2 ^ 63)
    (h : decodeAll signed src = .ok values) (requests : List Request) :
    ({ signed, src } : MachineDecoder).hasMore = !values.isEmpty ∧
      ({ signed, src } : MachineDecoder).answers requests =
        if ∀ request ∈ requests, request.asked ≤ limit then .ok (listAnswers values requests)
        else .error .capacity := by
  have hread : Run.readAll signed src = .ok values := by
    rw [decodeAll_eq signed hsrc] at h
    cases hall : Run.readAll signed src with
    | error e =>
        rw [hall] at h
        cases h
    | ok all =>
        rw [hall] at h
        cases h
        rfl
  have hstart : StandsFor { signed, src } (.ofBytes signed src) :=
    ⟨⟨hsrc, Nat.zero_le _, Nat.le_refl _, Nat.zero_le _⟩, rfl, rfl, rfl⟩
  have hremaining := RunDecoder.remaining_ofBytes hread
  exact ⟨hstart.hasMore.trans (RunDecoder.hasMore_eq hremaining),
    answers_spec hstart hremaining requests⟩

/-- A short repeat of three values and a direct run of two, asked for in pieces that end inside of
runs: rows are counted also past the end of the bitmap, and the last request but one asks for more
than is left. An eighth of the memory that there can be is too much to ask for. -/
theorem answers_eq_listAnswers_two_runs :
    decodeAll true [0x00, 0x02, 0x4E, 0x01, 0x04, 0x03] = .ok [1, 1, 1, 2, -2] ∧
      answers { signed := true, src := [0x00, 0x02, 0x4E, 0x01, 0x04, 0x03] }
          [.next, .readNotNull [7] (.ofList [true, true, false, true]) _
            (Bitmap.made_ofList (by decide)) 1 200, .skip 1, .read [] 2, .read [] 0] =
        .ok [⟨.ok (), [1], true⟩, ⟨.ok (), [7, 1, 1], true⟩, ⟨.ok (), [], true⟩,
          ⟨.error .runTruncated, [-2], false⟩, ⟨.ok (), [], false⟩] ∧
      answers { signed := true, src := [0x00, 0x02, 0x4E, 0x01, 0x04, 0x03] } [.read [] (2 ^ 60)] =
        .error .capacity := by
  have hread : decodeAll true [0x00, 0x02, 0x4E, 0x01, 0x04, 0x03] = .ok [1, 1, 1, 2, -2] := by
    decide +kernel
  have hanswers := fun requests => (answers_eq_listAnswers (by decide) hread requests).2
  refine ⟨hread, (hanswers _).trans ?_, (hanswers _).trans ?_⟩
  · rw [if_pos (by decide +kernel)]
    rfl
  · exact if_neg (by decide)

end MachineDecoder

end ColumnFile
