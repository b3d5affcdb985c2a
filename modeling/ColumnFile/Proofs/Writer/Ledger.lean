import ColumnFile.Datum.Basic
import ColumnFile.Fault

/-! # Ledgers of writers

What can be noted down beside a writer from the rows that it is given and from which of its calls
fail. Rows of a stripe that was refused are lost, but stay counted; rows that a merge took over
before it failed are there, but not counted.

* **`Batch`**, **`Ledger`** — the rows of a stripe, and those of a writer.
* **`Ledger.flush`**, **`Ledger.write`**, **`Ledger.merge`** — what a call comes to.
* **`Ledger.Clean`** — the ledger of a writer of which no call failed.
* **`Ledger.Backed`** — one in which every row is counted; it is clean when no others are. -/

namespace ColumnFile

/-- A **batch**: the rows of a stripe, and the rows that its statistics count besides, which are
those of the stripes that were refused before it. -/
structure Batch where
  /-- The rows. -/
  rows : List Row
  /-- The rows that are counted besides. -/
  besides : List Row := []

/-- The **ledger** of a writer. -/
structure Ledger where
  /-- The stripes that were written. -/
  stripes : List Batch := []
  /-- The rows that are kept for the next stripe. -/
  kept : List Row := []
  /-- The rows of the stripes that were refused since the last one was written. -/
  stale : List Row := []
  /-- The rows that are counted. -/
  counted : List Row := []

namespace Ledger

/-! ## (1) Rows -/

/-- The rows of the stripes. -/
def written (l : Ledger) : List Row := l.stripes.flatMap Batch.rows

/-- The rows of the stripes, and those that are kept behind them. -/
def rows (l : Ledger) : List Row := l.written ++ l.kept

/-- The rows that the statistics of stripes count besides, or will count. -/
def besides (l : Ledger) : List Row := l.stripes.flatMap Batch.besides ++ l.stale

/-- One more row. -/
def take (l : Ledger) (row : Row) : Ledger :=
  { l with kept := l.kept ++ [row], counted := l.counted ++ [row] }

/-- The batch of the rows that are kept, if there are some. -/
def pending (l : Ledger) : List Batch :=
  if l.kept = [] then [] else [{ rows := l.kept, besides := l.stale }]

/-- The rows that were kept became a stripe, if there were some. -/
def flushed (l : Ledger) : Ledger :=
  if l.kept = [] then l
  else { l with stripes := l.stripes ++ l.pending, kept := [], stale := [] }

/-- The rows that were kept were refused. -/
def refused (l : Ledger) : Ledger := { l with kept := [], stale := l.stale ++ l.kept }

/-- A flush with an outcome. -/
def flush (l : Ledger) : Except Fault Unit → Ledger
  | .ok () => l.flushed
  | .error _ => l.refused

/-- One more row, and a flush with an outcome once there are rows enough. -/
def write (limit : Nat) (row : Row) (outcome : Except Fault Unit) (l : Ledger) : Ledger :=
  if limit ≤ (l.take row).kept.length then (l.take row).flush outcome else l.take row

/-- Stripes of another writer came over. -/
def adopt (l : Ledger) (batches : List Batch) : Ledger :=
  { l with stripes := l.stripes ++ batches }

/-- Rows of another writer are counted. -/
def count (l : Ledger) (more : List Row) : Ledger := { l with counted := l.counted ++ more }

/-- Another writer was merged. -/
def merge (l other : Ledger) : Ledger :=
  (l.flushed.adopt other.flushed.stripes).count other.counted

variable {l other : Ledger} {row : Row}

/-- There is no batch when no rows are kept. -/
theorem pending_of_nil (h : l.kept = []) : l.pending = [] := if_pos h

/-- The rows that are kept are a batch. -/
theorem pending_of_ne (h : l.kept ≠ []) : l.pending = [{ rows := l.kept, besides := l.stale }] :=
  if_neg h

/-- A flush without rows does nothing. -/
theorem flushed_of_nil (h : l.kept = []) : l.flushed = l := if_pos h

/-- No batch is left only if no rows are kept. -/
theorem kept_of_pending (h : l.pending = []) : l.kept = [] := by
  by_cases hkept : l.kept = []
  · exact hkept
  · rw [pending_of_ne hkept] at h
    cases h

@[simp] theorem stripes_flushed (l : Ledger) : l.flushed.stripes = l.stripes ++ l.pending := by
  unfold flushed
  by_cases hkept : l.kept = []
  · rw [if_pos hkept, pending_of_nil hkept, List.append_nil]
  · rw [if_neg hkept]

@[simp] theorem kept_flushed (l : Ledger) : l.flushed.kept = [] := by
  unfold flushed
  by_cases hkept : l.kept = []
  · rw [if_pos hkept, hkept]
  · rw [if_neg hkept]

@[simp] theorem counted_flushed (l : Ledger) : l.flushed.counted = l.counted := by
  unfold flushed
  split <;> rfl

@[simp] theorem rows_flushed (l : Ledger) : l.flushed.rows = l.rows := by
  unfold flushed
  by_cases hkept : l.kept = []
  · rw [if_pos hkept]
  · rw [if_neg hkept]
    simp [rows, written, pending_of_ne hkept]

/-- After a flush all rows are those of stripes. -/
@[simp] theorem written_flushed (l : Ledger) : l.flushed.written = l.rows := by
  have h := l.rows_flushed
  rw [rows, kept_flushed, List.append_nil] at h
  exact h

/-- The rows of refused stripes are counted besides the next one. -/
@[simp] theorem besides_flushed (l : Ledger) : l.flushed.besides = l.besides := by
  unfold flushed
  by_cases hkept : l.kept = []
  · rw [if_pos hkept]
  · rw [if_neg hkept]
    simp [besides, pending_of_ne hkept]

@[simp] theorem rows_take (l : Ledger) (row : Row) : (l.take row).rows = l.rows ++ [row] :=
  (List.append_assoc _ _ _).symm

@[simp] theorem count_nil (l : Ledger) : l.count [] = l := by
  rw [count, List.append_nil]

@[simp] theorem adopt_nil (l : Ledger) : l.adopt [] = l := by
  rw [adopt, List.append_nil]

@[simp] theorem counted_flush (l : Ledger) (outcome : Except Fault Unit) :
    (l.flush outcome).counted = l.counted := by
  cases outcome with
  | ok u => exact l.counted_flushed
  | error e => rfl

@[simp] theorem counted_write (l : Ledger) (limit : Nat) (row : Row) (outcome : Except Fault Unit) :
    (l.write limit row outcome).counted = l.counted ++ [row] := by
  unfold write
  split
  · rw [counted_flush]
    rfl
  · rfl

/-- A row that was taken is the last one, if nothing was refused. -/
@[simp] theorem rows_write (l : Ledger) (limit : Nat) (row : Row) :
    (l.write limit row (.ok ())).rows = l.rows ++ [row] := by
  unfold write
  split
  · exact (l.take row).rows_flushed.trans (l.rows_take row)
  · exact l.rows_take row

@[simp] theorem rows_merge (l other : Ledger) : (l.merge other).rows = l.rows ++ other.rows := by
  have h : (l.merge other).rows = l.flushed.written ++ other.flushed.written ++ l.flushed.kept := by
    simp [rows, merge, count, adopt, written]
  rw [h, kept_flushed, List.append_nil, written_flushed, written_flushed]

@[simp] theorem counted_merge (l other : Ledger) :
    (l.merge other).counted = l.counted ++ other.counted := by
  show l.flushed.counted ++ other.counted = _
  rw [counted_flushed]

/-! ## (2) Ledgers in order -/

/-- **A clean ledger**: all rows are there and counted, and the statistics count no others. -/
structure Clean (l : Ledger) : Prop where
  counted : l.counted = l.rows
  stale : l.stale = []
  besides : ∀ b ∈ l.stripes, b.besides = []

/-- A ledger without rows is clean. -/
theorem clean_nil : Clean {} := ⟨rfl, rfl, by intro b hb; cases hb⟩

/-- One more row leaves a ledger clean. -/
theorem Clean.take (h : l.Clean) (row : Row) : (l.take row).Clean := by
  refine ⟨?_, h.stale, h.besides⟩
  rw [rows_take, ← h.counted]
  rfl

/-- A flush leaves a ledger clean. -/
theorem Clean.flushed (h : l.Clean) : l.flushed.Clean := by
  refine ⟨by rw [counted_flushed, rows_flushed, h.counted], ?_, ?_⟩
  · unfold Ledger.flushed
    split
    · exact h.stale
    · rfl
  · intro b hb
    rw [stripes_flushed] at hb
    rcases List.mem_append.mp hb with hb | hb
    · exact h.besides b hb
    · by_cases hkept : l.kept = []
      · rw [pending_of_nil hkept] at hb
        cases hb
      · rw [pending_of_ne hkept] at hb
        rw [List.mem_singleton.mp hb]
        exact h.stale

/-- A row that is written leaves a ledger clean. -/
theorem Clean.write (h : l.Clean) (limit : Nat) (row : Row) :
    (l.write limit row (.ok ())).Clean := by
  unfold Ledger.write
  split
  · exact (h.take row).flushed
  · exact h.take row

/-- A merge of clean ledgers is clean. -/
theorem Clean.merge (h : l.Clean) (hother : other.Clean) : (l.merge other).Clean := by
  refine ⟨by rw [counted_merge, rows_merge, h.counted, hother.counted], h.flushed.stale, ?_⟩
  intro b hb
  rcases List.mem_append.mp hb with hb | hb
  · exact h.flushed.besides b hb
  · exact hother.flushed.besides b hb

/-- **A backed ledger**: every row is counted, and so are those that are counted besides. -/
structure Backed (l : Ledger) : Prop where
  rows : l.rows.Sublist l.counted
  besides : l.besides.length + l.rows.length ≤ l.counted.length

/-- A clean ledger counts no rows besides. -/
theorem Clean.besides_eq (h : l.Clean) : l.besides = [] := by
  rw [Ledger.besides, h.stale, List.append_nil]
  exact List.flatMap_eq_nil_iff.mpr h.besides

/-- A clean ledger is backed. -/
theorem Clean.backed (h : l.Clean) : l.Backed := by
  constructor
  · simp [h.counted]
  · simp [h.counted, h.besides_eq]

/-- **A backed ledger is clean** when no other rows are counted. -/
theorem Backed.clean (h : l.Backed) (hcounted : l.counted = l.rows) : l.Clean := by
  have hbesides : l.besides = [] := by
    refine List.eq_nil_of_length_eq_zero ?_
    have hlength := h.besides
    rw [hcounted] at hlength
    omega
  obtain ⟨hstripes, hstale⟩ := List.append_eq_nil_iff.mp hbesides
  exact ⟨hcounted, hstale, List.flatMap_eq_nil_iff.mp hstripes⟩

/-- One more row leaves a ledger backed. -/
theorem Backed.take (h : l.Backed) (row : Row) : (l.take row).Backed := by
  refine ⟨?_, ?_⟩
  · rw [rows_take]
    exact h.rows.append (List.Sublist.refl [row])
  · have hcounted : (l.take row).counted = l.counted ++ [row] := rfl
    have hbesides : (l.take row).besides = l.besides := rfl
    have hlength := h.besides
    rw [rows_take, hcounted, hbesides, List.length_append, List.length_append]
    omega

/-- Rows that are refused leave a ledger backed. -/
theorem Backed.refused (h : l.Backed) : l.refused.Backed := by
  have hcounted : l.refused.counted = l.counted := rfl
  have hrows : l.rows = l.refused.rows ++ l.kept :=
    congrArg (· ++ l.kept) (List.append_nil l.written).symm
  have hbesides : l.refused.besides = l.besides ++ l.kept := (List.append_assoc _ _ _).symm
  refine ⟨?_, ?_⟩
  · have hsublist := h.rows
    rw [hrows] at hsublist
    exact (List.sublist_append_left _ _).trans hsublist
  · have hlength := h.besides
    rw [hrows, List.length_append] at hlength
    rw [hcounted, hbesides, List.length_append]
    omega

/-- A flush leaves a ledger backed, whatever comes of it. -/
theorem Backed.flush (h : l.Backed) (outcome : Except Fault Unit) : (l.flush outcome).Backed := by
  cases outcome with
  | ok u =>
      show l.flushed.Backed
      refine ⟨?_, ?_⟩
      · rw [rows_flushed, counted_flushed]
        exact h.rows
      · rw [rows_flushed, counted_flushed, besides_flushed]
        exact h.besides
  | error e => exact h.refused

/-- A row that is written leaves a ledger backed, whatever comes of it. -/
theorem Backed.write (h : l.Backed) (limit : Nat) (row : Row) (outcome : Except Fault Unit) :
    (l.write limit row outcome).Backed := by
  unfold Ledger.write
  split
  · exact (h.take row).flush outcome
  · exact h.take row

/-- A merge of backed ledgers is backed. -/
theorem Backed.merge (h : l.Backed) (hother : other.Backed) : (l.merge other).Backed := by
  refine ⟨?_, ?_⟩
  · rw [rows_merge, counted_merge]
    exact h.rows.append hother.rows
  · -- rows of the other writer that were refused behind its last stripe are not kept in mind
    have hbesides : (l.merge other).besides.length ≤ l.flushed.besides.length +
      other.flushed.besides.length := by
      simp only [Ledger.besides, Ledger.merge, count, adopt, List.flatMap_append,
        List.length_append]
      omega
    rw [besides_flushed, besides_flushed] at hbesides
    have hours := h.besides
    have htheirs := hother.besides
    rw [rows_merge, counted_merge, List.length_append, List.length_append]
    omega

end Ledger

end ColumnFile
