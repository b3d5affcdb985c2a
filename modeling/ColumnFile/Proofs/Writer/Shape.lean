import ColumnFile.Proofs.Writer.Crew
import ColumnFile.Proofs.Writer.Laid

/-! # The shape of writers

The columns of a writer, the statistics of its next stripe and those of its file have the width of
its schema, whatever happens to it. The statistics for its summary come from outside and may have
any width.

* **`Writer.Shaped`** — a writer in shape.
* **`Writer.Shapes`** — what a step keeps; one lemma for each step of a writer.
* **`Writer.shaped_of_turns`** — every writer that is reached is in shape. -/

namespace ColumnFile.Writer

open Writing

/-- **A writer in shape**: its options are valid, and its columns and its own statistics are those
of its schema. -/
structure Shaped (w : Writer) : Prop where
  valid : w.options.validate = .ok ()
  columns : w.columns.columns.length = w.options.schema.length
  stripe : w.stripeStatistics.columns.length = w.options.schema.length
  file : w.fileStatistics.columns.length = w.options.schema.length

/-- The shape does not depend on the files of the writer, nor on what it says of them. -/
theorem Shaped.congr {w w' : Writer} (h : w.Shaped) (hoptions : w'.options = w.options)
    (hcolumns : w'.columns = w.columns) (hstripe : w'.stripeStatistics = w.stripeStatistics)
    (hfile : w'.fileStatistics = w.fileStatistics) : w'.Shaped := by
  refine ⟨?_, ?_, ?_, ?_⟩
  · rw [hoptions]
    exact h.valid
  · rw [hoptions, hcolumns]
    exact h.columns
  · rw [hoptions, hstripe]
    exact h.stripe
  · rw [hoptions, hfile]
    exact h.file

/-- **A step keeps the shape** of a writer. -/
def Shapes (ws ws' : Workspace) : Prop := ws.writer.Shaped → ws'.writer.Shaped

/-- A shape is kept when nothing changes. -/
instance : Std.Refl Shapes := ⟨fun _ h => h⟩

/-- A shape that is kept is kept further. -/
instance : IsTrans Workspace Shapes := ⟨fun _ _ _ h h' hshaped => h' (h hshaped)⟩

variable [Library] {ws ws' : Workspace} {w : Writer} {row : Row} {threshold : Option Nat}
  {s : ColumnSet}

/-! ## (1) Columns -/

omit [Library] in
/-- A step of one column leaves as many columns as there are. -/
theorem length_modify (s : ColumnSet) (i : Nat) (step : Column → Attempt Column) :
    (s.modify i step).2.columns.length = s.columns.length := by
  unfold ColumnSet.modify
  split
  · rfl
  · exact List.length_set

omit [Library] in
/-- **Values that are appended**, all of them or some, leave as many columns as there are. -/
theorem length_appendValues (threshold : Option Nat) (s : ColumnSet)
    (values : List (Option Bytes)) :
    (appendValues threshold s values).2.columns.length = s.columns.length :=
  appendValues_keeps _ (P := fun s' => s'.columns.length = s.columns.length) values
    (fun s' i _ hs' => (length_modify s' i _).trans hs') rfl

omit [Library] in
/-- **New columns** are those of the schema. -/
theorem length_freshColumns [Library] {options : WriterOptions} {attributes : List Attributes}
    {columns : ColumnSet} (h : freshColumns options attributes = .ok columns) :
    columns.columns.length = options.schema.length := by
  obtain ⟨list, hlist, h⟩ := bind_eq_ok h
  cases h
  exact (ColumnSet.newFrom_spec hlist).length_eq

/-! ## (2) Steps -/

omit [Library] in
/-- Laying down stripes keeps the shape. -/
theorem Lays.shapes (h : Lays ws ws') : Shapes ws ws' := by
  intro hshaped
  obtain ⟨offset, toastOffset, stripes, sink, hwriter⟩ := h.writer
  rw [hwriter]
  exact hshaped.congr rfl rfl rfl rfl

/-- **Counting a row** keeps the shape; the statistics for the summary are no part of it. -/
theorem count_shapes (row : Row) : Within Shapes (count row) := by
  intro ws outcome ws' h hshaped
  have hstripe : ∀ s, ws.writer.stripeStatistics.addRow row = .ok s →
      s.columns.length = ws.writer.options.schema.length :=
    fun s hs => (Collector.addRow_width hs).2.trans hshaped.stripe
  have hfile : ∀ s, ws.writer.fileStatistics.addRow row = .ok s →
      s.columns.length = ws.writer.options.schema.length :=
    fun s hs => (Collector.addRow_width hs).2.trans hshaped.file
  cases outcome with
  | error e =>
      rcases count_failed h with ⟨-, rfl⟩ | ⟨s, hs, -, rfl⟩ | ⟨s, s', summary, hs, hs', -, -, rfl⟩
      · exact hshaped
      · exact ⟨hshaped.valid, hshaped.columns, hstripe s hs, hshaped.file⟩
      · exact ⟨hshaped.valid, hshaped.columns, hstripe s hs, hfile s' hs'⟩
  | ok u =>
      obtain ⟨s, s', summary, hs, hs', -, rfl⟩ := count_ok h
      exact ⟨hshaped.valid, hshaped.columns, hstripe s hs, hfile s' hs'⟩

/-- **A flush** keeps the shape. -/
theorem flush_shapes : Within Shapes flush := by
  intro ws outcome ws' h hshaped
  obtain ⟨columns, stripeStatistics, hcolumns, hstripe, hlays⟩ := flush_lays h
  refine hlays.shapes ⟨hshaped.valid, ?_, ?_, hshaped.file⟩
  · rcases hcolumns with rfl | ⟨attributes, hfresh⟩
    · exact hshaped.columns
    · exact length_freshColumns hfresh
  · rcases hstripe with rfl | rfl
    · exact hshaped.stripe
    · exact (List.length_map _).trans hshaped.stripe

omit [Library] in
/-- Columns that values were appended to, all of them or some, are in shape. -/
theorem Shaped.appended {outcome : Except Fault Unit} {values : List (Option Bytes)}
    {columns : ColumnSet} (h : w.Shaped)
    (happend : appendValues threshold w.columns values = (outcome, columns)) :
    ({ w with columns } : Writer).Shaped := by
  have hlength := length_appendValues threshold w.columns values
  rw [happend] at hlength
  exact ⟨h.valid, hlength.trans h.columns, h.stripe, h.file⟩

/-- **A row that is written**, or is not, keeps the shape. -/
theorem write_shapes (row : Row) : Within Shapes (write row) := by
  intro ws outcome ws' h hshaped
  have htaken : Takes row outcome ws ws' → ws'.writer.Shaped := by
    rintro ⟨-, values, columns, w₁, -, happend, hcount, ⟨-, -, rfl⟩ | ⟨-, hflush⟩⟩
    · exact count_shapes row hcount (hshaped.appended happend)
    · exact flush_shapes hflush (count_shapes row hcount (hshaped.appended happend))
  cases outcome with
  | ok u => exact htaken (write_ok h).2
  | error e =>
      rcases write_failed h with rfl | ⟨-, values, columns, -, ⟨happend, rfl⟩ | ⟨happend, hcount⟩⟩ |
        htakes
      · exact hshaped
      · exact hshaped.appended happend
      · exact count_shapes row hcount (hshaped.appended happend)
      · exact htaken htakes

/-- **Closing** keeps the shape. -/
theorem close_shapes : Within Shapes close := by
  intro ws outcome ws' h hshaped
  rcases close_cases h with ⟨-, -, rfl⟩ | ⟨e, -, hflush⟩ | ⟨w₁, hflush, hends⟩
  · exact hshaped
  · exact flush_shapes hflush hshaped
  · have hflushed := flush_shapes hflush hshaped
    rcases hends with ⟨-, rfl⟩ | ⟨file, store, closed, summaries, -, rfl, -, -⟩
    · exact hflushed.congr rfl rfl rfl rfl
    · exact hflushed.congr rfl rfl rfl rfl

omit [Library] in
/-- Statistics that are taken over keep the shape. -/
theorem takeStatistics_shapes (other : Writer) : Within Shapes (takeStatistics other) := by
  intro ws outcome ws' h hshaped
  unfold takeStatistics at h
  have h := writer_ok h
  rcases lift_cases h with ⟨-, -, -, rfl⟩ | ⟨summary, -, h⟩
  · exact hshaped
  have h := setWriter_ok h
  rcases lift_cases h with ⟨-, -, -, rfl⟩ | ⟨file, hfile, h⟩
  · exact hshaped.congr rfl rfl rfl rfl
  · cases h
    exact ⟨hshaped.valid, hshaped.columns, hshaped.stripe,
      (Collector.merge_width hfile).trans hshaped.file⟩

omit [Library] in
/-- Paths are no part of the shape. -/
theorem deleteFiles_shapes (other : Writer) : Within Shapes (deleteFiles other) := by
  intro ws outcome ws' h hshaped
  obtain ⟨store, rfl⟩ := deleteFiles_store h
  exact hshaped

/-- **Merging** keeps the shape of the writer that goes on, whatever the other one is like. -/
theorem merge_shapes (other : Writer) : Within Shapes (merge other) := by
  have hadopt : Within Shapes (adopt other) := fun _ _ _ h => (adopt_lays other h).shapes
  rw [merge_eq]
  exact within_writer.bind fun w => (within_lift _).bind fun _ => flush_shapes.bind fun _ =>
    hadopt.bind fun _ => (takeStatistics_shapes other).bind fun _ => deleteFiles_shapes other

/-! ## (3) Writers that are reached -/

/-- **A new writer** is in shape. -/
theorem create_shaped {options : WriterOptions} {store store' : Store}
    (h : create options store = (.ok w, store')) : w.Shaped := by
  obtain ⟨file, store₁, toastFile, columns, hvalid, -, -, hcolumns, rfl⟩ := create_ok h
  exact ⟨hvalid, length_freshColumns hcolumns, List.length_map _, List.length_map _⟩

/-- **Every writer that is reached** is in shape. -/
theorem shaped_of_turns {archive : Archive} {crew : Crew}
    (h : Relation.ReflTransGen Turn (.start archive) crew) :
    ∀ i w, crew.member i = some w → w.Shaped := by
  induction h with
  | refl =>
      intro i w hmember
      cases hmember
  | tail _ hturn ih =>
      intro k w hmember
      cases hturn with
      | create i step =>
          rcases listed_of_join hmember with ⟨-, rfl⟩ | ⟨-, hmember⟩
          · exact create_shaped step
          · exact ih k w hmember
      | unmade step => exact ih k w hmember
      | @equip i w' sink summary hold =>
          -- neither the sink nor the statistics for the summary are part of the shape
          rcases listed_of_join hmember with ⟨-, rfl⟩ | ⟨-, hmember⟩
          · exact (ih i w' hold).congr rfl rfl rfl rfl
          · exact ih k w hmember
      | @task i w' outcome ws task hold step =>
          rcases listed_of_join hmember with ⟨-, rfl⟩ | ⟨-, hmember⟩
          · have hshaped := ih i w' hold
            cases task with
            | write row => exact write_shapes row step hshaped
            | flush => exact flush_shapes step hshaped
            | close => exact close_shapes step hshaped
          · exact ih k w hmember
      | @merge i j a b outcome ws hfirst hsecond htwo step =>
          rcases listed_of_join hmember with ⟨-, rfl⟩ | ⟨-, hmember⟩
          · exact merge_shapes b step (ih i a hfirst)
          · exact ih k w (listed_of_drop hmember).2
      | drop i => exact ih k w (listed_of_drop hmember).2

end ColumnFile.Writer
