import ColumnFile.Proofs.Writer.Merge

/-! # What laying down stripes changes

However stripes come into the files of a writer, and whether they do or not, only its own files are
written, and of the writer only what it says of them and its sink change.

* **`Writer.Lays`** — what changes at most; **`Writer.putStripe_lays`**, **`Writer.adopt_lays`** —
  the steps that put and that copy stripes.
* **`Writer.flush_lays`** — a flush also begins with new columns; **`Writer.flush_advances`** —
  paths and the files of others are left alone. -/

namespace ColumnFile.Writer

open Writing

variable {ws ws' ws'' : Workspace} {α : Type}

/-- **What laying down stripes changes** at most: the files of the writer, and its offsets, its
directory and its sink. -/
structure Lays (ws ws' : Workspace) : Prop where
  writer : ∃ offset toastOffset stripes sink,
    ws'.writer = { ws.writer with offset, toastOffset, stripes, sink }
  writes : Store.Writes ws.writer.Owns ws.archive.store ws'.archive.store
  summaries : ws'.archive.summaries = ws.archive.summaries

/-- A writer owns the same files when only what it says of them changes. -/
theorem Lays.owns (h : Lays ws ws') : ws'.writer.Owns = ws.writer.Owns := by
  obtain ⟨offset, toastOffset, stripes, sink, hwriter⟩ := h.writer
  rw [hwriter]
  rfl

/-- Nothing is laid down when nothing changes. -/
instance : Std.Refl Lays := ⟨fun _ => ⟨⟨_, _, _, _, rfl⟩, Store.Writes.refl _ _, rfl⟩⟩

/-- Stripes are laid down one behind the other. -/
instance : IsTrans Workspace Lays where
  trans ws ws' ws'' h h' := by
    refine ⟨?_, h.writes.trans (h.owns ▸ h'.writes), h'.summaries.trans h.summaries⟩
    obtain ⟨offset, toastOffset, stripes, sink, hwriter⟩ := h.writer
    obtain ⟨offset', toastOffset', stripes', sink', hwriter'⟩ := h'.writer
    exact ⟨offset', toastOffset', stripes', sink', by rw [hwriter', hwriter]⟩

/-! ## (1) Stripes that are put -/

/-- **What the writer says of its files**, and its sink, may change. -/
theorem setWriter_lays {change : Writer → Writer}
    (h : ∀ w, ∃ offset toastOffset stripes sink,
      change w = { w with offset, toastOffset, stripes, sink }) :
    Within Lays (setWriter change) :=
  within_setWriter fun ws => ⟨h ws.writer, Store.Writes.refl _ _, rfl⟩

/-- **Octets are put** into the file of the writer. -/
theorem putData_lays (stripe : Bytes) : Within Lays (putData stripe) := by
  intro ws outcome ws' h
  cases outcome with
  | error e =>
      obtain ⟨⟨sink, log, rfl⟩, -⟩ := putData_failed h
      exact ⟨⟨_, _, _, sink, rfl⟩, Store.Writes.refl _ _, rfl⟩
  | ok u =>
      obtain ⟨file, sink, log, hfile, rfl⟩ := putData_ok h
      exact ⟨⟨_, _, _, sink, rfl⟩, Store.writes_write (.inl hfile) _ _, rfl⟩

/-- **Values out of line are put** into the file of the writer for them. -/
theorem putToast_lays (values : Bytes) : Within Lays (putToast values) := by
  intro ws outcome ws' h
  cases outcome with
  | error e =>
      rw [(putToast_failed h).1]
      exact refl_of Lays ws
  | ok u =>
      rcases putToast_ok h with ⟨-, rfl⟩ | ⟨file, -, hfile, rfl⟩
      · exact refl_of Lays ws'
      · exact ⟨⟨_, _, _, _, rfl⟩, Store.writes_write (.inr hfile) _ _, rfl⟩

/-- **Columns are put** as a stripe. -/
theorem putStripe_lays [Library] (columns : ColumnSet) (statistics : List ColumnStatistics) :
    Within Lays (putStripe columns statistics) := by
  unfold putStripe
  generalize columns.serialize = result
  obtain ⟨image, encoded⟩ := result
  refine (within_lift _).bind fun image => (putToast_lays _).bind fun _ =>
    (putData_lays _).bind fun _ => ?_
  exact Within.bind (setWriter_lays fun _ => ⟨_, _, _, _, rfl⟩) fun _ => within_pure _

/-! ## (2) Stripes that are copied -/

/-- **Values out of line are copied** from another writer. -/
theorem copyToast_lays (other : Writer) : Within Lays (copyToast other) := by
  intro ws outcome ws' h
  cases outcome with
  | error e =>
      rw [copyToast_failed h]
      exact refl_of Lays ws
  | ok u =>
      rcases copyToast_ok h with ⟨-, rfl⟩ | ⟨theirs, ours, values, -, -, hours, -, rfl⟩
      · exact refl_of Lays ws'
      · exact ⟨⟨_, _, _, _, rfl⟩, Store.writes_write (.inr hours) _ _, rfl⟩

/-- **A stripe is copied** from another writer. -/
theorem copyStripe_lays (other : Writer) (toastBase : Nat) (info : StripeInformation) :
    Within Lays (copyStripe other toastBase info) := by
  unfold copyStripe
  cases other.file with
  | none => exact within_throw _
  | some theirs =>
      refine within_store.bind fun s => (within_lift _).bind fun stripe =>
        (putData_lays _).bind fun _ => ?_
      exact setWriter_lays fun _ => ⟨_, _, _, _, rfl⟩

variable [Library]

/-- **What comes over** from another writer goes into the files of this one. -/
theorem adopt_lays (other : Writer) : Within Lays (adopt other) := by
  have hrows : Within Lays (takeRows other) := by
    unfold takeRows
    by_cases hsome : 0 < other.columns.rows
    · rw [if_pos hsome]
      exact (within_lift _).bind fun fresh => (putStripe_lays _ _).bind fun columns => within_pure _
    · rw [if_neg hsome]
      exact within_pure _
  unfold adopt
  exact within_writer.bind fun w => (copyToast_lays other).bind fun _ =>
    (within_forM _ (copyStripe_lays other _)).bind fun _ => hrows

/-! ## (3) Flushes -/

omit [Library] in
/-- What lays down stripes leaves the paths and the files of others alone. -/
theorem Lays.advances (h : Lays ws ws') : Advances ws ws' := by
  obtain ⟨offset, toastOffset, stripes, sink, hwriter⟩ := h.writer
  refine ⟨?_, ?_, ?_, h.writes⟩
  all_goals rw [hwriter]

/-- **A flush** lays down a stripe and goes on with new columns, and then the statistics of the
stripe begin anew; or it comes less far. -/
theorem flush_lays {outcome : Except Fault Unit} (h : runAt flush ws = (outcome, ws')) :
    ∃ columns stripeStatistics,
      (columns = ws.writer.columns ∨
        ∃ attributes, freshColumns ws.writer.options attributes = .ok columns) ∧
      (stripeStatistics = ws.writer.stripeStatistics ∨
        stripeStatistics = ws.writer.stripeStatistics.reset) ∧
      Lays { ws with writer := { ws.writer with columns, stripeStatistics } } ws' := by
  unfold flush at h
  have h := writer_ok h
  rcases lift_cases h with ⟨e, -, -, rfl⟩ | ⟨⟨⟩, -, h⟩
  · exact ⟨_, _, .inl rfl, .inl rfl, refl_of Lays ws'⟩
  -- with no rows there is nothing to lay down
  by_cases hrows : 0 < ws.writer.columns.rows
  · rw [if_pos hrows] at h
    rcases lift_cases h with ⟨e, -, -, rfl⟩ | ⟨fresh, hfresh, h⟩
    · exact ⟨_, _, .inl rfl, .inl rfl, refl_of Lays ws'⟩
    have h := setWriter_ok h
    rcases bind_cases h with ⟨e, hput, -⟩ | ⟨columns, w₁, hput, h⟩
    · exact ⟨fresh, _, .inr ⟨_, hfresh⟩, .inl rfl, putStripe_lays _ _ hput⟩
    have hlays := putStripe_lays _ _ hput
    rcases lift_cases h with ⟨e, -, -, rfl⟩ | ⟨fresh', hfresh', h⟩
    · exact ⟨fresh, _, .inr ⟨_, hfresh⟩, .inl rfl, hlays⟩
    · -- the stripe was laid down with other columns, but what it changed does not depend on them
      cases h
      obtain ⟨offset, toastOffset, stripes, sink, hwriter⟩ := hlays.writer
      refine ⟨fresh', _, .inr ⟨_, hfresh'⟩, .inr rfl, ⟨offset, toastOffset, stripes, sink, ?_⟩,
        hlays.writes, hlays.summaries⟩
      dsimp only
      rw [hwriter]
  · rw [if_neg hrows] at h
    cases h
    exact ⟨_, _, .inl rfl, .inl rfl, refl_of Lays _⟩

/-- **A flush** leaves the paths and the files of others alone. -/
theorem flush_advances : Within Advances flush := by
  intro ws outcome ws' h
  obtain ⟨columns, stripeStatistics, -, -, hlays⟩ := flush_lays h
  exact ⟨hlays.advances.options, hlays.advances.file, hlays.advances.toastFile, hlays.writes⟩

end ColumnFile.Writer
