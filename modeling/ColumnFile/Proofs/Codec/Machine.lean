import ColumnFile.Codec.Machine
import ColumnFile.Proofs.Bitmap.Count
import ColumnFile.Proofs.Buffer.Machine
import ColumnFile.Proofs.Dictionary
import ColumnFile.Proofs.RunLength.Decoder

/-! # Codecs within a machine

A stream is decoded on a machine as it is on numbers, if there is memory for what is asked for: the
length that a file records of it, the integers that are expected or announced, the values of a
dictionary as they are added. Nothing else stops the program.

* **`Machine.decompressInto_eq`**, **`Machine.decompressInto_stops`** — decompression behind what a
  buffer holds.
* **`Machine.decodeBytes_guards`**, **`Machine.decodeInts_guards`**,
  **`Machine.decodeNotNull_guards`** — streams.
* **`Buffer.Affords`** — a buffer that takes some octets without asking for too much.
* **`Machine.expandInto_eq`**, **`Machine.expandInto_ok`** — dictionaries, by induction on the runs
  of codes. -/

namespace ColumnFile

namespace Machine

/-! ## (1) Compressed strings -/

section Expansion

variable {c : BlockCompressor} {src : Bytes} {length : Nat} {out : Buffer}

/-- **A string that there is memory for** is decompressed as on numbers. -/
theorem decompressInto_eq (hout : out.Ordered) (h : ¬ out.Overdraws length) :
    decompressInto c src length out = .ok (c.decompressInto src length out) := by
  rw [decompressInto, reserve_eq h, ok_bind,
    within_eq (Nat.zero_le _) (hout.le_available_reserve length)]
  rfl

/-- **A string that there is no memory for** stops the program. -/
theorem decompressInto_stops (h : out.Overdraws length) :
    ∃ t, decompressInto c src length out = .error (.trap t) := by
  obtain ⟨t, hreserve⟩ := reserve_stops h
  exact ⟨t, by rw [decompressInto, hreserve]; rfl⟩

/-- A new buffer has room for as much as its capacity. -/
theorem available_ofCapacity (length : Nat) : (Buffer.ofCapacity length).available = length :=
  List.length_replicate

/-- A new buffer whose memory could be asked for. -/
theorem backed_ofCapacity (h : length ≤ limit) : (Buffer.ofCapacity length).Backed :=
  ⟨⟨Nat.le_refl 0, Nat.zero_le _⟩, Nat.le_trans (Nat.le_of_eq List.length_replicate) h⟩

/-- What fits a new buffer does not ask for memory. -/
theorem not_overdraws_ofCapacity (h : src.length ≤ length) :
    ¬ (Buffer.ofCapacity length).Overdraws src.length := by
  rintro ⟨hfull, -⟩
  rw [available_ofCapacity] at hfull
  exact Nat.not_lt.mpr h hfull

end Expansion

/-! ## (2) Streams -/

/-- As many integers are decoded as were expected. -/
theorem length_of_decodeInts {codec : Codec} {src : Bytes} {count : Nat} {values : List Int64}
    (h : codec.decodeInts src count = .ok values) : values.length = count := by
  cases codec with
  | runLength signed =>
      obtain ⟨⟨read, after⟩, htake, hread⟩ := bind_eq_ok h
      cases hread
      exact RunDecoder.length_take htake
  | delta =>
      obtain ⟨read, -, hread⟩ := bind_eq_ok h
      dsimp only at hread
      split at hread
      · cases hread
      · next hcount =>
          cases hread
          exact not_not.mp hcount
  | plain | dictionary | block kind level => cases h

/-- **Integers** are decoded if there is memory for as many as are expected or announced. -/
theorem decodeInts_guards (codec : Codec) (src : Bytes) (count : Nat) :
    Guards (codec.integersAsked src count ≤ limit) (decodeInts codec src count)
      (codec.decodeInts src count) :=
  (guards_allocate _ (guards_self _)).congr (and_iff_left trivial)

/-- **The integers of the rows that are not null** are decoded if there is memory for them. -/
theorem decodeNotNull_guards (codec : Codec) (src : Bytes) {notNull : Bitmap} (h : notNull.Tidy) :
    Guards (codec.integersAsked src notNull.count ≤ limit) (decodeNotNull codec src notNull)
      (codec.decodeNotNull src notNull) := by
  rw [← h.countRange_len]
  exact (guards_allocate _ (guards_self _)).congr (and_iff_left trivial)

/-- **A plain or block-compressed stream** is decoded if there is memory for the length that was
recorded. -/
theorem decodeBytes_guards [BlockLibrary] (codec : Codec) (src : Bytes) (length : Nat) :
    Guards (length ≤ limit) (decodeBytes codec src length) (codec.decodeBytes src length) := by
  -- there is memory for the octets that were recorded, or the program stops before it looks at any
  by_cases hlength : length ≤ limit
  · have hnew := backed_ofCapacity hlength
    refine ⟨fun _ => ?_, fun hnot => absurd hlength hnot⟩
    cases codec with
    | plain =>
        rw [Codec.decodeBytes]
        simp only [decodeBytes, allocate_eq hlength, ok_bind]
        by_cases hsame : src.length = length
        · rw [if_neg (not_not_intro hsame), if_neg (not_not_intro hsame),
            append_eq hnew (not_overdraws_ofCapacity (Nat.le_of_eq hsame))]
          exact congrArg Except.ok (hnew.ordered.committed_append src)
        · rw [if_pos hsame, if_pos hsame]
          rfl
    | block kind level =>
        rw [Codec.decodeBytes]
        simp only [decodeBytes, allocate_eq hlength, ok_bind]
        by_cases hzero : length = 0
        · rw [if_pos hzero, if_pos hzero]
          rfl
        · have hfree : ¬ (Buffer.ofCapacity length).Overdraws length := fun hover =>
            absurd hover.1 (Nat.not_lt.mpr (Nat.le_of_eq (available_ofCapacity length).symm))
          rw [if_neg hzero, if_neg hzero, decompressInto_eq hnew.ordered hfree]
          rfl
    | runLength _ | delta | dictionary =>
        simp only [decodeBytes, allocate_eq hlength, ok_bind]
        rfl
  · refine ⟨fun hfits => absurd hfits hlength, fun _ => .inl ⟨.capacity, ?_⟩⟩
    unfold decodeBytes
    rw [allocate_capacity (Nat.not_le.mp hlength)]
    rfl

end Machine

/-! ## (3) Buffers that take some octets -/

namespace Buffer

variable {b : Buffer} {total n : Nat} {bs : Bytes}

/-- **A buffer takes octets** up to a total: they fit, or twice as many could be asked for. -/
structure Affords (b : Buffer) (total : Nat) : Prop where
  backed : b.Backed
  memory : total ≤ b.capacity ∨ 2 * total ≤ Machine.limit

/-- Within the total there is memory. -/
theorem Affords.not_overdraws (h : b.Affords total) (hle : b.used + n ≤ total) :
    ¬ b.Overdraws n := by
  rintro ⟨hfull, hpast⟩
  have hused := h.backed.ordered.2
  rw [available] at hfull
  rcases h.memory with hfits | hdouble <;> omega

/-- Making room does not make memory smaller. -/
theorem capacity_le_reserve (b : Buffer) (n : Nat) : b.capacity ≤ (b.reserve n).capacity := by
  unfold reserve
  split
  · exact Nat.le_refl _
  · show b.capacity ≤ (Bytes.resize _ _).length
    rw [Bytes.length_resize]
    omega

/-- A buffer takes octets one after another. -/
theorem Affords.append (h : b.Affords total) (hle : b.used + bs.length ≤ total) :
    (b.append bs).Affords total := by
  have hfits : ¬ (Call.append bs).Overdraws b := h.not_overdraws hle
  refine ⟨Machine.backed_perform h.backed hfits, ?_⟩
  obtain ⟨hused, -, -, hroom⟩ := h.backed.ordered.reserve bs.length
  have hfree : (b.reserve bs.length).used + bs.length ≤ (b.reserve bs.length).capacity :=
    hused ▸ hroom
  have hput := capacity_put hfree
  rw [hused] at hput
  have hgrown : b.capacity ≤ (b.append bs).capacity :=
    Nat.le_trans (b.capacity_le_reserve bs.length) (Nat.le_of_eq hput.symm)
  exact h.memory.imp_left fun hfits => Nat.le_trans hfits hgrown

end Buffer

/-! ## (4) Dictionaries -/

/-- What an attempt leaves if it succeeds. -/
def Attempt.result {σ : Type} (a : Attempt σ) : Except Fault σ := a.1.map fun _ => a.2

namespace Machine

open Dictionary (Parts)

variable {p : Parts} {out out' : Buffer} {total : Nat}

/-- **Values that are added one by one** are added as on numbers, if a buffer takes all of them. -/
theorem joinInto_eq {codes : List Int64} (h : out.Affords total)
    (hle : out.used + (p.join codes).2.length ≤ total) :
    joinInto p codes out = (Attempt.result (p.joinInto codes out)).mapError .fault ∧
      (p.joinInto codes out).2.Affords total := by
  induction codes generalizing out with
  | nil => exact ⟨rfl, h⟩
  | cons code rest ih =>
      rw [Parts.join] at hle
      rw [joinInto, Parts.joinInto]
      cases hvalue : p.value code with
      | error e => exact ⟨rfl, h⟩
      | ok value =>
          rw [hvalue] at hle
          dsimp only at hle
          rw [List.length_append] at hle
          have hfirst : out.used + value.length ≤ total := by omega
          have hnext : (out.append value).used + (p.join rest).2.length ≤ total := by
            rw [(h.backed.ordered.append value).2.1]
            omega
          obtain ⟨hrun, hafter⟩ := ih (h.append hfirst) hnext
          show (append out value >>= fun out => joinInto p rest out) = _ ∧ _
          rw [append_eq h.backed (h.not_overdraws hfirst)]
          exact ⟨hrun, hafter⟩

/-- **What was added** without a stop was added as on numbers. -/
theorem joinInto_ok {codes : List Int64} (h : out.Backed) (hok : joinInto p codes out = .ok out') :
    p.joinInto codes out = (.ok (), out') ∧ out'.Backed := by
  induction codes generalizing out with
  | nil =>
      cases hok
      exact ⟨rfl, h⟩
  | cons code rest ih =>
      rw [joinInto] at hok
      rw [Parts.joinInto]
      cases hvalue : p.value code with
      | error e =>
          rw [hvalue] at hok
          cases hok
      | ok value =>
          rw [hvalue] at hok
          change (append out value >>= fun out => joinInto p rest out) = .ok out' at hok
          by_cases hover : out.Overdraws value.length
          · obtain ⟨t, hstop⟩ := append_stops hover
            rw [hstop] at hok
            cases hok
          · rw [append_eq h hover] at hok
            have hfits : ¬ (Buffer.Call.append value).Overdraws out := hover
            exact ih (backed_perform h hfits) hok

/-- **The values of runs of codes** are added as on numbers, if a buffer takes all of them. By
induction on the codes that are left. -/
theorem joinRunsInto_eq {codes : Bytes} (h : out.Affords total)
    (hle : out.used + (p.joinRuns codes).2.length ≤ total) :
    joinRunsInto p codes out = (Attempt.result (p.joinRunsInto codes out)).mapError .fault := by
  -- run after run, by the length of what is left; the room that a run takes is part of what all
  -- take
  induction hlength : codes.length using Nat.strongRecOn generalizing codes out with
  | ind length ih =>
      rw [Parts.joinRuns] at hle
      rw [joinRunsInto, Parts.joinRunsInto]
      by_cases hnil : codes = []
      · rw [if_pos hnil, if_pos hnil]
        rfl
      · rw [if_neg hnil] at hle
        rw [if_neg hnil, if_neg hnil]
        cases hrun : Run.read false codes with
        | error e => rfl
        | ok read =>
            obtain ⟨run, rest⟩ := read
            rw [hrun] at hle
            dsimp only at hle ⊢
            obtain ⟨hresult, hadds⟩ := Dictionary.joinInto_spec p run h.backed.ordered
            -- the values of the first run are among those of all
            have hfirst : out.used + (p.join run).2.length ≤ total := by
              generalize p.join run = joined at hle ⊢
              obtain ⟨outcome, values⟩ := joined
              cases outcome with
              | error e => exact hle
              | ok _ =>
                  dsimp only at hle
                  rw [List.length_append] at hle
                  exact Nat.le_trans (Nat.add_le_add_left (Nat.le_add_right _ _) _) hle
            obtain ⟨hjoin, hafter⟩ := joinInto_eq h hfirst
            have hused := congrArg List.length hadds.committed
            rw [List.length_append, Buffer.committed, Buffer.committed,
              List.length_take_of_le hadds.ordered.2,
              List.length_take_of_le h.backed.ordered.2] at hused
            rw [hjoin]
            generalize p.joinInto run out = into at hresult hafter hused ⊢
            generalize p.join run = joined at hresult hused hle
            obtain ⟨outcome, out₁⟩ := into
            obtain ⟨outcome', values⟩ := joined
            cases hresult
            -- when a run could not be joined, both end there
            cases outcome with
            | error e => rfl
            | ok _ =>
                dsimp only at hle hused
                rw [List.length_append] at hle
                exact ih rest.length (hlength ▸ Run.read_length hrun) hafter
                  (by dsimp only; omega) rfl

/-- **What was added of runs** without a stop was added as on numbers. -/
theorem joinRunsInto_ok {codes : Bytes} (h : out.Backed)
    (hok : joinRunsInto p codes out = .ok out') :
    p.joinRunsInto codes out = (.ok (), out') := by
  induction hlength : codes.length using Nat.strongRecOn generalizing codes out with
  | ind length ih =>
      rw [joinRunsInto] at hok
      rw [Parts.joinRunsInto]
      by_cases hnil : codes = []
      · rw [if_pos hnil] at hok ⊢
        cases hok
        rfl
      · rw [if_neg hnil] at hok ⊢
        cases hrun : Run.read false codes with
        | error e =>
            rw [hrun] at hok
            cases hok
        | ok read =>
            obtain ⟨run, rest⟩ := read
            rw [hrun] at hok
            dsimp only at hok ⊢
            obtain ⟨out₁, hjoin, hmore⟩ := bind_eq_ok hok
            obtain ⟨hinto, hbacked⟩ := joinInto_ok h hjoin
            rw [hinto]
            exact ih rest.length (hlength ▸ Run.read_length hrun) hbacked hmore rfl

/-- **A dictionary stream** is expanded as on numbers, if a buffer takes its values. -/
theorem expandInto_eq {bs : Bytes} (h : out.Affords total)
    (hle : out.used + (Dictionary.expand bs).2.length ≤ total) :
    expandInto bs out = (Attempt.result (Dictionary.expandInto bs out)).mapError .fault := by
  rw [Dictionary.expand] at hle
  rw [expandInto, Dictionary.expandInto]
  cases hparse : Dictionary.parse bs with
  | error e => rfl
  | ok p =>
      rw [hparse] at hle
      exact joinRunsInto_eq h hle

/-- **What was expanded** without a stop was expanded as on numbers. -/
theorem expandInto_ok {bs : Bytes} (h : out.Backed) (hok : expandInto bs out = .ok out') :
    Dictionary.expandInto bs out = (.ok (), out') := by
  rw [expandInto] at hok
  rw [Dictionary.expandInto]
  cases hparse : Dictionary.parse bs with
  | error e =>
      rw [hparse] at hok
      cases hok
  | ok p =>
      rw [hparse] at hok
      exact joinRunsInto_ok h hok

end Machine

end ColumnFile
