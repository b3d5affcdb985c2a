import ColumnFile.Proofs.Fault
import ColumnFile.Writer.Close
import ColumnFile.Writer.Merge
import Mathlib.Order.Defs.Unbundled

/-! # What steps of a writer did

A step of a writer that succeeded is taken apart: which steps it took, and what each of them left
behind.

* **`Writing.bind_ok`**, **`Writing.bind_error`** — a chain of steps; `lift_ok`, `throw_ok` and the
  like are its links.
* **`Writing.Within`** — what a step leaves is related to where it began, whatever comes of it;
  chains of such steps are such steps.
* **`Writer.create_ok`** — a new writer.
* **`Writer.putData_ok`**, **`Writer.putToast_ok`**, **`Writer.putStripe_ok`** — what is put into
  files.
* **`Writer.flush_ok`**, **`Writer.write_ok`**, **`Writer.close_ok`** — the steps of a caller. -/

namespace ColumnFile

namespace Writing

variable {α β : Type} {x : Writing α} {f : α → Writing β} {w w' : Workspace} {a : α} {b : β}
  {e : Fault}
  {r : Except Fault β × Workspace}

/-! ## (1) Chains of steps -/

/-- A step with some outcome leaves what it leaves. -/
theorem runAt_eq {x : Writing Unit} {result : Except Fault Unit × Workspace}
    {outcome : Except Fault Unit} (h : result = runAt x w) (houtcome : result.1 = outcome) :
    runAt x w = (outcome, result.2) := by
  rw [← h]
  exact Prod.ext houtcome rfl

/-- A chain goes on with what its first step leaves, if that succeeds. -/
theorem runAt_bind (x : Writing α) (f : α → Writing β) (w : Workspace) :
    runAt (x >>= f) w = match runAt x w with
      | (.ok a, w) => runAt (f a) w
      | (.error e, w) => (.error e, w) := by
  show (match ((StateT.run (ExceptT.run x) w : Id _) : Except Fault α × Workspace) with
    | (a, w) => StateT.run (ExceptT.bindCont f a) w) = _
  unfold runAt
  generalize StateT.run (ExceptT.run x) w = result
  obtain ⟨outcome, left⟩ := result
  cases outcome <;> rfl

/-- A chain that begins by asking for the writer goes on with it. -/
theorem runAt_writer (f : Writer → Writing β) (w : Workspace) :
    runAt (writer >>= f) w = runAt (f w.writer) w := rfl

/-- A chain that begins with a fault changes nothing. -/
theorem runAt_refused {r : Except Fault α} (h : r = .error e) (f : α → Writing β) (w : Workspace) :
    runAt (lift r >>= f) w = (.error e, w) := by
  rw [h]
  rfl

/-- **A chain that succeeds** took a first step that did, and went on with what it left. -/
theorem bind_ok (h : runAt (x >>= f) w = (.ok b, w')) :
    ∃ a w₁, runAt x w = (.ok a, w₁) ∧ runAt (f a) w₁ = (.ok b, w') := by
  rw [runAt_bind] at h
  split at h
  · rename_i a w₁ hx
    exact ⟨a, w₁, hx, h⟩
  · cases h

/-- **A chain that fails** failed in its first step, or went on with what that left and failed
later. -/
theorem bind_error (h : runAt (x >>= f) w = (.error e, w')) :
    runAt x w = (.error e, w') ∨ ∃ a w₁, runAt x w = (.ok a, w₁) ∧
    runAt (f a) w₁ = (.error e, w') := by
  rw [runAt_bind] at h
  split at h
  · rename_i a w₁ hx
    exact .inr ⟨a, w₁, hx, h⟩
  · rename_i e' w₁ hx
    cases h
    exact .inl hx

/-- A chain that begins by asking for the writer. -/
theorem writer_ok {f : Writer → Writing β} (h : runAt (writer >>= f) w = r) :
    runAt (f w.writer) w = r := h

/-- A chain that begins by asking for the files. -/
theorem store_ok {f : Store → Writing β} (h : runAt (store >>= f) w = r) :
    runAt (f w.archive.store) w = r := h

/-- A chain that begins by changing the writer. -/
theorem setWriter_ok {change : Writer → Writer} {f : Unit → Writing β}
    (h : runAt (setWriter change >>= f) w = r) :
    runAt (f ()) { w with writer := change w.writer } = r := h

/-- A chain that begins by changing the files. -/
theorem setStore_ok {change : Store → Store} {f : Unit → Writing β}
    (h : runAt (setStore change >>= f) w = r) :
    runAt (f ()) { w with archive.store := change w.archive.store } = r := h

/-- **A chain that begins with a result** goes on with it. -/
theorem lift_ok {e : Except Fault α} (h : runAt (lift e >>= f) w = (.ok b, w')) :
    ∃ a, e = .ok a ∧ runAt (f a) w = (.ok b, w') := by
  cases e with
  | error e => cases h
  | ok a => exact ⟨a, rfl, h⟩

/-- **A chain that begins with a result** fails as the result does, and changes nothing then, or
goes on. -/
theorem lift_error {r : Except Fault α} (h : runAt (lift r >>= f) w = (.error e, w')) :
    (r = .error e ∧ w' = w) ∨ ∃ a, r = .ok a ∧ runAt (f a) w = (.error e, w') := by
  cases r with
  | error e' =>
      cases h
      exact .inl ⟨rfl, rfl⟩
  | ok a => exact .inr ⟨a, rfl, h⟩

/-- **A chain that begins with a result**: it fails as the result does, and changes nothing then, or
goes on, whatever comes of it. -/
theorem lift_cases {r : Except Fault α} {outcome : Except Fault β}
    (h : runAt (lift r >>= f) w = (outcome, w')) :
    (∃ e, r = .error e ∧ outcome = .error e ∧ w' = w) ∨ ∃ a, r = .ok a ∧
    runAt (f a) w = (outcome, w') := by
  cases r with
  | error e =>
      cases h
      exact .inl ⟨e, rfl, rfl, rfl⟩
  | ok a => exact .inr ⟨a, rfl, h⟩

/-- **A chain of two steps** failed in the first one, or went on with what that left, whatever came
of it. -/
theorem bind_cases {outcome : Except Fault β} (h : runAt (x >>= f) w = (outcome, w')) :
    (∃ e, runAt x w = (.error e, w') ∧ outcome = .error e) ∨
      ∃ a w₁, runAt x w = (.ok a, w₁) ∧ runAt (f a) w₁ = (outcome, w') := by
  rw [runAt_bind] at h
  split at h
  · rename_i a w₁ hx
    exact .inr ⟨a, w₁, hx, h⟩
  · rename_i e w₁ hx
    cases h
    exact .inl ⟨e, hx, rfl⟩

/-- A step that gives a result leaves everything as it was. -/
theorem pure_ok {a' : α} (h : runAt (pure a : Writing α) w = (.ok a', w')) : a' = a ∧ w' = w := by
  cases h
  exact ⟨rfl, rfl⟩

/-- A fault is no success. -/
theorem throw_ok {e : Fault} (h : runAt (throw e : Writing α) w = (.ok a, w')) : False := by
  cases h

/-! ## (2) Steps within a relation -/

variable {R : Workspace → Workspace → Prop}

/-- **A step stays within a relation**: what it leaves is related to where it began, whether it
succeeds or fails. -/
def Within (R : Workspace → Workspace → Prop) (step : Writing α) : Prop :=
  ∀ ⦃w : Workspace⦄ ⦃outcome : Except Fault α⦄ ⦃w' : Workspace⦄, runAt step w = (outcome, w') →
    R w w'

/-- **A chain** stays within a transitive relation when its steps do. -/
theorem Within.bind [IsTrans Workspace R] {x : Writing α} {f : α → Writing β} (hx : Within R x)
    (hf : ∀ a, Within R (f a)) : Within R (x >>= f) := by
  intro w outcome w' h
  rw [runAt_bind] at h
  generalize hfirst : runAt x w = result at h
  obtain ⟨first, w₁⟩ := result
  cases first with
  | error e =>
      cases h
      exact hx hfirst
  | ok a => exact trans_of R (hx hfirst) (hf a h)

/-- **A step that leaves everything as it was** stays within a reflexive relation. -/
theorem within_of_same [Std.Refl R] {x : Writing α} (h : ∀ w, (runAt x w).2 = w) : Within R x := by
  intro w outcome w' hstep
  have hsame := h w
  rw [hstep] at hsame
  rw [show w' = w from hsame]
  exact refl_of R w

/-- A value that is given is within all relations that hold of nothing. -/
theorem within_pure [Std.Refl R] (a : α) : Within R (pure a) := within_of_same fun _ => rfl

/-- A failure is, too. -/
theorem within_throw [Std.Refl R] (e : Fault) : Within R (throw e : Writing α) :=
  within_of_same fun _ => rfl

/-- So is an outcome that was there. -/
theorem within_lift [Std.Refl R] (r : Except Fault α) : Within R (lift r) := by
  cases r with
  | ok a => exact within_pure a
  | error e => exact within_throw e

/-- So is a look at the writer. -/
theorem within_writer [Std.Refl R] : Within R writer := within_of_same fun _ => rfl

/-- So is a look at the store. -/
theorem within_store [Std.Refl R] : Within R store := within_of_same fun _ => rfl

/-- **Steps for the members of a list** stay within a relation when each of them does. -/
theorem within_forM [Std.Refl R] [IsTrans Workspace R] {step : β → Writing Unit} (list : List β)
    (h : ∀ b, Within R (step b)) : Within R (list.forM step) := by
  induction list with
  | nil => exact within_pure _
  | cons b list ih => exact (h b).bind fun _ => ih

/-- **A change of the writer** stays within a relation that it always keeps. -/
theorem within_setWriter {change : Writer → Writer}
    (h : ∀ w, R w { w with writer := change w.writer }) :
    Within R (setWriter change) := by
  intro w outcome w' hstep
  cases hstep
  exact h w

end Writing

namespace Writer

open Writing


/-! ## (3) New writers -/

/-- **A writer was made** for valid options: its file was created, and the file of out-of-line
values if the options ask for one. -/
theorem create_ok {options : WriterOptions} {store store' : Store} {w : Writer}
    (h : create options store = (.ok w, store')) :
    ∃ file store₁ toastFile columns, options.validate = .ok () ∧
      store.create options.fileName = .ok (file, store₁) ∧
      createToast options store₁ = .ok (toastFile, store') ∧ freshColumns options [] = .ok columns ∧
      w = { options, file := some file, toastFile, columns,
            stripeStatistics := freshStatistics options,
            fileStatistics := freshStatistics options } := by
  unfold create at h
  -- the steps in order: each that fails ends the whole
  cases hvalid : options.validate with
  | error e =>
      rw [hvalid] at h
      cases h
  | ok u =>
      rw [hvalid] at h
      cases hcreate : store.create options.fileName with
      | error e =>
          rw [hcreate] at h
          cases h
      | ok result =>
          obtain ⟨file, store₁⟩ := result
          rw [hcreate] at h
          dsimp only at h
          cases htoast : createToast options store₁ with
          | error e =>
              rw [htoast] at h
              cases h
          | ok result =>
              obtain ⟨toastFile, store₂⟩ := result
              rw [htoast] at h
              cases hcolumns : freshColumns options [] with
              | error e =>
                  rw [hcolumns] at h
                  cases h
              | ok columns =>
                  rw [hcolumns] at h
                  cases h
                  exact ⟨file, store₁, toastFile, columns, rfl, rfl, htoast, rfl, rfl⟩

/-- **The file of out-of-line values was created**, or the options ask for none. -/
theorem createToast_ok {options : WriterOptions} {store store' : Store} {toastFile : Option FileId}
    (h : createToast options store = .ok (toastFile, store')) :
    (toastFile = none ∧ store' = store) ∨
      ∃ t, toastFile = some t ∧ store.create options.toastFileName = .ok (t, store') := by
  unfold createToast at h
  cases hthreshold : options.toastThreshold with
  | none =>
      rw [hthreshold] at h
      cases h
      exact .inl ⟨rfl, rfl⟩
  | some limit =>
      rw [hthreshold] at h
      obtain ⟨⟨t, store₁⟩, hcreate, heq⟩ := map_eq_ok h
      cases heq
      exact .inr ⟨t, rfl, hcreate⟩

/-! ## (4) What is put into files -/

variable [Library] {w w' : Workspace} {stripe values : Bytes}

omit [Library] in
/-- A writer that is not refused is open. -/
theorem checkOpen_ok {w : Writer} (h : w.checkOpen = .ok ()) : w.closed = false := by
  rw [checkOpen] at h
  rw [← Bool.not_eq_true]
  intro hclosed
  rw [if_pos hclosed] at h
  cases h

omit [Library] in
/-- A writer that was closed is refused. -/
theorem checkOpen_closed {w : Writer} (h : w.closed = true) :
    w.checkOpen = .error (.writerClosed w.options.fileName) := if_pos h

omit [Library] in
/-- **A stripe was logged**, or no stripe is: the files are left alone. -/
theorem logStripe_ok (h : runAt (logStripe stripe) w = (.ok (), w')) :
    ∃ sink log, w' = { writer := { w.writer with sink }, archive := { w.archive with log } } := by
  unfold logStripe at h
  have h := writer_ok h
  by_cases hlog : w.writer.options.log = true
  · rw [if_pos hlog] at h
    cases hsink : w.writer.sink with
    | none =>
        rw [hsink] at h
        exact (throw_ok h).elim
    | some sink =>
        rw [hsink] at h
        have h := setWriter_ok h
        cases hrefusal : sink.refusal sink.calls with
        | some e =>
            rw [hrefusal] at h
            exact (throw_ok h).elim
        | none =>
            rw [hrefusal] at h
            cases h
            exact ⟨_, _, rfl⟩
  · rw [if_neg hlog] at h
    cases h
    exact ⟨w.writer.sink, w.archive.log, rfl⟩

omit [Library] in
/-- **The octets of a stripe were put** behind the stripes so far. -/
theorem putData_ok (h : runAt (putData stripe) w = (.ok (), w')) :
    ∃ file sink log, w.writer.file = some file ∧ w' =
      { writer := { w.writer with sink }
        archive :=
          { w.archive with store := w.archive.store.write file w.writer.offset stripe, log } } := by
  unfold putData at h
  obtain ⟨⟨⟩, w₁, hlog, h⟩ := bind_ok h
  obtain ⟨sink, log, hw₁⟩ := logStripe_ok hlog
  have hsame : w₁.writer.file = w.writer.file := by rw [hw₁]
  have h := writer_ok h
  cases hfile : w₁.writer.file with
  | none =>
      rw [hfile] at h
      exact (throw_ok h).elim
  | some file =>
      rw [hfile] at h
      cases h
      refine ⟨file, sink, log, hsame.symm.trans hfile, ?_⟩
      rw [hw₁]

omit [Library] in
/-- **The values out of line were put** behind those so far, if there are any. -/
theorem putToast_ok (h : runAt (putToast values) w = (.ok (), w')) :
    (values = [] ∧ w' = w) ∨ ∃ t, values ≠ [] ∧ w.writer.toastFile = some t ∧
      w' = { w with archive.store := w.archive.store.write t w.writer.toastOffset values } := by
  unfold putToast at h
  have h := writer_ok h
  cases values with
  | nil =>
      cases h
      exact .inl ⟨rfl, rfl⟩
  | cons x values =>
      right
      rw [List.isEmpty_cons, Bool.not_false, if_pos rfl] at h
      cases htoast : w.writer.toastFile with
      | none =>
          rw [htoast] at h
          exact (throw_ok h).elim
      | some t =>
          rw [htoast] at h
          cases h
          exact ⟨t, List.cons_ne_nil _ _, rfl, rfl⟩

/-- **A row was counted** in the statistics of the next stripe, in those of the file and in those
for the summary, if there are any of their own. -/
theorem count_ok {row : Row} (h : runAt (count row) w = (.ok (), w')) :
    ∃ stripeStatistics fileStatistics summaryStatistics,
      w.writer.stripeStatistics.addRow row = .ok stripeStatistics ∧
      w.writer.fileStatistics.addRow row = .ok fileStatistics ∧
      w.writer.summaryStatistics.mapM (·.addRow row) = .ok summaryStatistics ∧
      w' = { w with
        writer :=
          { w.writer with
            stripeStatistics, fileStatistics, summaryStatistics
            tuples := w.writer.tuples + 1 } } := by
  unfold count at h
  have h := writer_ok h
  obtain ⟨stripeStatistics, hstripe, h⟩ := lift_ok h
  have h := setWriter_ok h
  obtain ⟨fileStatistics, hfile, h⟩ := lift_ok h
  have h := setWriter_ok h
  obtain ⟨⟨⟩, w₁, hsummary, h⟩ := bind_ok h
  -- the collector for the summary counts as well, if there is one
  have hcounted : ∃ summaryStatistics,
      w.writer.summaryStatistics.mapM (·.addRow row) = .ok summaryStatistics ∧ w₁ = { w with
        writer := { w.writer with stripeStatistics, fileStatistics, summaryStatistics } } := by
    unfold countForSummary at hsummary
    have hsummary := writer_ok hsummary
    cases hkept : w.writer.summaryStatistics with
    | none =>
        dsimp only at hsummary
        rw [hkept] at hsummary
        cases hsummary
        exact ⟨none, rfl, rfl⟩
    | some statistics =>
        dsimp only at hsummary
        rw [hkept] at hsummary
        obtain ⟨statistics', hadd, hsummary⟩ := lift_ok hsummary
        cases hsummary
        refine ⟨some statistics', ?_, rfl⟩
        rw [Option.mapM_some, hadd]
        rfl
  obtain ⟨summaryStatistics, hsummed, rfl⟩ := hcounted
  cases h
  exact ⟨stripeStatistics, fileStatistics, summaryStatistics, hstripe, hfile, hsummed, rfl⟩

variable {columns columns' : ColumnSet} {statistics : List ColumnStatistics}

/-- **Columns were put** as a stripe: their image was made, the values out of line and the octets
were put, and the stripe was listed. -/
theorem putStripe_ok (h : runAt (putStripe columns statistics) w = (.ok columns', w')) :
    ∃ image w₁ w₂, columns.serialize = (.ok image, columns') ∧
      runAt (putToast columns'.external) w = (.ok (), w₁) ∧
      runAt (putData (image.data ++ Message.encode image.footer)) w₁ = (.ok (), w₂) ∧
      w' = { w₂ with
        writer := w₂.writer.addStripe
          { offset := w₂.writer.offset
            dataLength := image.data.length
            footerLength := (Message.encode image.footer).length
            rows := columns'.rows
            toastOffset := w₂.writer.toastOffset
            toastLength := columns'.external.length
            toastCount := columns'.toastCount
            toastLengths := columns'.externalLengths
            statistics } } := by
  unfold putStripe at h
  generalize hserialize : columns.serialize = result at h
  obtain ⟨outcome, encoded⟩ := result
  dsimp only at h
  obtain ⟨image, houtcome, h⟩ := lift_ok h
  obtain ⟨⟨⟩, w₁, htoast, h⟩ := bind_ok h
  obtain ⟨⟨⟩, w₂, hdata, h⟩ := bind_ok h
  cases setWriter_ok h
  rw [houtcome]
  exact ⟨image, w₁, w₂, rfl, htoast, hdata, rfl⟩

/-! ## (5) The steps of a caller -/

/-- **A flush** of an open writer: there was nothing to write, or a stripe was put and new columns
were made from what was learned. -/
theorem flush_ok (h : runAt flush w = (.ok (), w')) : w.writer.closed = false ∧
    ((w.writer.columns.rows = 0 ∧ w' = w) ∨
      ∃ fresh columns w₁ fresh', 0 < w.writer.columns.rows ∧
        runAt (putStripe w.writer.columns w.writer.stripeStatistics.finish)
          { w with writer := { w.writer with columns := fresh } } = (.ok columns, w₁) ∧
        freshColumns w.writer.options columns.attributes = .ok fresh' ∧
        w' = { w₁ with
          writer :=
            { w₁.writer with
              columns := fresh', stripeStatistics := w₁.writer.stripeStatistics.reset } }) := by
  unfold flush at h
  have h := writer_ok h
  obtain ⟨⟨⟩, hopen, h⟩ := lift_ok h
  refine ⟨checkOpen_ok hopen, ?_⟩
  by_cases hrows : 0 < w.writer.columns.rows
  · right
    rw [if_pos hrows] at h
    obtain ⟨fresh, -, h⟩ := lift_ok h
    have h := setWriter_ok h
    obtain ⟨columns, w₁, hput, h⟩ := bind_ok h
    obtain ⟨fresh', hfresh, h⟩ := lift_ok h
    cases h
    exact ⟨fresh, columns, w₁, fresh', hrows, hput, hfresh, rfl⟩
  · left
    rw [if_neg hrows] at h
    cases h
    exact ⟨Nat.eq_zero_of_not_pos hrows, rfl⟩

/-- **A row was taken**: its values were stored and appended, and it was counted. It was flushed
with an outcome if there were rows enough. -/
def Takes (row : Row) (outcome : Except Fault Unit) (w w' : Workspace) : Prop :=
  row.length = w.writer.options.schema.length ∧ ∃ values columns w₁,
    storedRow w.writer.options.schema row = .ok values ∧
    appendValues w.writer.options.toastThreshold w.writer.columns values = (.ok (), columns) ∧
    runAt (count row) { w with writer := { w.writer with columns } } = (.ok (), w₁) ∧
    ((columns.rows < w.writer.options.groupLimit ∧ outcome = .ok () ∧ w' = w₁) ∨
      (w.writer.options.groupLimit ≤ columns.rows ∧ runAt flush w₁ = (outcome, w')))

/-- **A row was written** by an open writer, which took it. -/
theorem write_ok {row : Row} (h : runAt (write row) w = (.ok (), w')) :
    w.writer.closed = false ∧ Takes row (.ok ()) w w' := by
  unfold write at h
  have h := writer_ok h
  obtain ⟨⟨⟩, hopen, h⟩ := lift_ok h
  by_cases hwidth : row.length ≠ w.writer.options.schema.length
  · rw [if_pos hwidth] at h
    obtain ⟨a, w₁, hthrow, -⟩ := bind_ok h
    exact (throw_ok hthrow).elim
  · rw [if_neg hwidth] at h
    obtain ⟨values, hvalues, h⟩ := lift_ok h
    generalize happend : appendValues _ _ _ = result at h
    obtain ⟨outcome, columns⟩ := result
    dsimp only at h
    have h := setWriter_ok h
    obtain ⟨⟨⟩, houtcome, h⟩ := lift_ok h
    obtain ⟨⟨⟩, w₁, hcount, h⟩ := bind_ok h
    refine ⟨checkOpen_ok hopen, Classical.not_not.mp hwidth, values, columns, w₁, hvalues, ?_,
      hcount, ?_⟩
    · rw [happend, houtcome]
    · by_cases hfull : w.writer.options.groupLimit ≤ columns.rows
      · rw [if_pos hfull] at h
        exact .inr ⟨hfull, h⟩
      · rw [if_neg hfull] at h
        cases h
        exact .inl ⟨Nat.not_le.mp hfull, rfl, rfl⟩

omit [Library] in
/-- **The file of out-of-line values was let go**, and its path deleted if there were none. -/
theorem closeToast_ok (h : runAt closeToast w = (.ok (), w')) :
    ∃ store, w' = { writer := { w.writer with toastFile := none },
                    archive := { w.archive with store } } ∧
      ((w.writer.toastFile.isSome = true ∧ w.writer.toastOffset = 0 ∧
          w.archive.store.delete w.writer.options.toastFileName = .ok store) ∨
        (¬ (w.writer.toastFile.isSome = true ∧ w.writer.toastOffset = 0) ∧
          store = w.archive.store)) := by
  unfold closeToast at h
  have h := writer_ok h
  have h := setWriter_ok h
  by_cases hempty : w.writer.toastFile.isSome = true ∧ w.writer.toastOffset = 0
  · rw [if_pos hempty] at h
    have h := store_ok h
    obtain ⟨store, hdelete, h⟩ := lift_ok h
    cases h
    exact ⟨store, rfl, .inl ⟨hempty.1, hempty.2, hdelete⟩⟩
  · rw [if_neg hempty] at h
    cases h
    exact ⟨_, rfl, .inr ⟨hempty, rfl⟩⟩

/-- **An open writer was closed**: what was left was flushed, the end of the file was written, the
file of out-of-line values was let go, and the summary was given. -/
theorem close_ok (hopen : w.writer.closed = false) (h : runAt close w = (.ok (), w')) :
    ∃ w₁ file store, runAt flush w = (.ok (), w₁) ∧ w₁.writer.file = some file ∧
      w' = { writer := { w₁.writer with file := none, toastFile := none, closed := true }
             archive :=
              { w₁.archive with
                store
                summaries :=
                  w₁.archive.summaries ++ [w₁.writer.summary (tail w₁.writer.footer)] } } ∧
      ((w₁.writer.toastFile.isSome = true ∧ w₁.writer.toastOffset = 0 ∧
          (w₁.archive.store.write file w₁.writer.offset (tail w₁.writer.footer)).delete
            w₁.writer.options.toastFileName = .ok store) ∨
        (¬ (w₁.writer.toastFile.isSome = true ∧ w₁.writer.toastOffset = 0) ∧
          store = w₁.archive.store.write file w₁.writer.offset (tail w₁.writer.footer))) := by
  unfold close at h
  have h := writer_ok h
  rw [hopen, Bool.not_false, if_pos rfl] at h
  obtain ⟨⟨⟩, w₁, hflush, h⟩ := bind_ok h
  have h := writer_ok h
  have h := setWriter_ok h
  -- a writer without a file cannot end one
  cases hfile : w₁.writer.file with
  | none =>
      rw [hfile] at h
      obtain ⟨a, w₂, hthrow, -⟩ := bind_ok h
      exact (throw_ok hthrow).elim
  | some file =>
      rw [hfile] at h
      have h := setStore_ok h
      obtain ⟨⟨⟩, w₂, htoast, h⟩ := bind_ok h
      obtain ⟨store, rfl, hstore⟩ := closeToast_ok htoast
      cases h
      exact ⟨w₁, file, store, hflush, hfile, rfl, hstore⟩

end Writer

end ColumnFile
