import ColumnFile.Column.Basic
import ColumnFile.Proofs.Codec
import ColumnFile.Proofs.Column.Fixed
import ColumnFile.Proofs.Column.Variable

/-! # Columns hold their cells

The cells of a column of either kind, through every step of growth, and the stages that encode its
streams.

* **`Stage.Caches`** — a stage whose kept form is the one that its codec makes.
* **`Stage.Keeps`** — such a stage whose codec a reader finds from its choice; `encode_spec` is what
  encoding comes to.
* **`Column.Holds`** — a column that holds some cells; `new_spec`, `append_spec`, `appendNull_spec`,
  `appendToast_spec` and `setRows_spec` are its growth.
* **`Column.encodeData_spec`**, **`Column.encodeOffsets_spec`** — the encoded streams of a
  column. -/

namespace ColumnFile

variable {make : Codec → Except Fault Bytes} {signed : Bool} {shape : StreamShape}

namespace Stage

variable {s : Stage}

/-! ## (1) Stages -/

/-- **A stage keeps a stream** that `make` gives for a codec: its codec serves the shape and is
found from its choice, and an encoded form that it keeps is the one of its codec. -/
structure Keeps (s : Stage) (signed : Bool) (shape : StreamShape)
    (make : Codec → Except Fault Bytes) :
    Prop where
  reads : Codec.forReading s.choice signed = .ok s.codec
  suits : s.codec.suits shape = true
  cached : ∀ bs, s.encoded = some bs → make s.codec = .ok bs

/-- A stage without an encoded form keeps every stream. -/
theorem keeps_plain (signed : Bool) (shape : StreamShape) (make : Codec → Except Fault Bytes) :
    plain.Keeps signed shape make := by
  refine ⟨rfl, ?_, by intro bs h; cases h⟩
  cases shape <;> rfl

/-- A stage that is resolved keeps what is made for it. -/
theorem keeps_resolve (choice : EncodingChoice) (shape : StreamShape) (signed : Bool)
    (make : Codec → Except Fault Bytes) :
    (resolve choice shape signed).Keeps signed shape make := by
  obtain ⟨hsuits, hreads⟩ := Codec.resolve_spec choice shape signed
  exact ⟨hreads, hsuits, by intro bs h; cases h⟩

/-- **Forgetting the encoded form** makes room for another stream. -/
theorem Keeps.forget (h : s.Keeps signed shape make) (make' : Codec → Except Fault Bytes) :
    s.forget.Keeps signed shape make' :=
  ⟨h.reads, h.suits, by intro bs hbs; cases hbs⟩

/-- **The stage that reads a stream** keeps the streams of the stage that made it. -/
theorem Keeps.read (h : s.Keeps signed shape make) :
    (read s.codec s.choice).Keeps signed shape make :=
  ⟨h.reads, h.suits, by intro bs hbs; cases hbs⟩

/-- **What a stage keeps** of a stream is what its codec makes of it. -/
def Caches (s : Stage) (make : Codec → Except Fault Bytes) : Prop :=
  ∀ bs, s.encoded = some bs → make s.codec = .ok bs

/-- A stage that has encoded nothing caches nothing else. -/
theorem caches_of_empty (h : s.encoded = none) : s.Caches make := by
  intro bs hbs
  rw [h] at hbs
  cases hbs

/-- Encoding gives what the codec makes, kept or not. -/
theorem Caches.encode_eq (h : s.Caches make) (raw : Bytes) :
    (s.encode raw fun _ => make s.codec).1 = if s.codec.isPlain then .ok raw else make s.codec := by
  unfold encode
  split
  · rfl
  · cases hencoded : s.encoded with
    | some bs => exact (h bs hencoded).symm
    | none =>
        dsimp only
        cases hmake : make s.codec <;> rfl

/-- A stage that encodes caches what it made. -/
theorem Caches.encode_caches (h : s.Caches make) (raw : Bytes) :
    (s.encode raw fun _ => make s.codec).2.Caches make := by
  unfold encode
  split
  · exact h
  · cases hencoded : s.encoded with
    | some bs => exact h
    | none =>
        dsimp only
        cases hmake : make s.codec with
        | error e => exact h
        | ok bs =>
            intro bs' hbs
            cases hbs
            exact hmake

/-- A form that was forgotten is made again. -/
theorem Caches.encode_forget (h : s.Caches make) (raw : Bytes) :
    (s.forget.encode raw fun _ => make s.codec).1 = (s.encode raw fun _ => make s.codec).1 := by
  have hforget : s.forget.Caches make := caches_of_empty rfl
  exact (hforget.encode_eq raw).trans (h.encode_eq raw).symm

/-- Encoding changes neither the codec nor the choice. -/
theorem encode_same (s : Stage) (raw : Bytes) (make : Unit → Except Fault Bytes) :
    (s.encode raw make).2.codec = s.codec ∧ (s.encode raw make).2.choice = s.choice := by
  unfold encode
  split
  · exact ⟨rfl, rfl⟩
  · cases s.encoded with
    | some bs => exact ⟨rfl, rfl⟩
    | none =>
        dsimp only
        cases make () <;> exact ⟨rfl, rfl⟩

/-- **Encoding** gives what the codec makes, kept or not, and changes neither the codec nor the
choice. -/
theorem encode_spec (h : s.Keeps signed shape make) (raw : Bytes) (hraw : make .plain = .ok raw) :
    (s.encode raw fun _ => make s.codec).1 = make s.codec ∧
      (s.encode raw fun _ => make s.codec).2.codec = s.codec ∧
      (s.encode raw fun _ => make s.codec).2.choice = s.choice ∧
      (s.encode raw fun _ => make s.codec).2.Keeps signed shape make := by
  have hcaches : s.Caches make := h.cached
  obtain ⟨hcodec, hchoice⟩ := s.encode_same raw fun _ => make s.codec
  refine ⟨?_, hcodec, hchoice, ?_, ?_, hcaches.encode_caches raw⟩
  · rw [hcaches.encode_eq]
    split
    · rename_i hplain
      rw [beq_iff_eq.mp hplain, hraw]
    · rfl
  · rw [hchoice, hcodec]
    exact h.reads
  · rw [hcodec]
    exact h.suits

/-- **Encoding again** gives the same form and changes nothing more. -/
theorem encode_again {raw bs : Bytes} {make : Unit → Except Fault Bytes}
    (h : (s.encode raw make).1 = .ok bs) (make' : Unit → Except Fault Bytes) :
    (s.encode raw make).2.encode raw make' = (.ok bs, (s.encode raw make).2) := by
  unfold encode at h ⊢
  by_cases hplain : s.codec.isPlain = true
  · rw [if_pos hplain] at h ⊢
    dsimp only at h ⊢
    rw [if_pos hplain, h]
  · rw [if_neg hplain] at h ⊢
    cases hencoded : s.encoded with
    | some kept =>
        rw [hencoded] at h
        dsimp only at h ⊢
        rw [if_neg hplain, hencoded]
        dsimp only
        rw [h]
    | none =>
        rw [hencoded] at h
        dsimp only at h ⊢
        cases hmake : make () with
        | error e =>
            rw [hmake] at h
            cases h
        | ok made =>
            rw [hmake] at h
            dsimp only at h ⊢
            rw [if_neg hplain, h]

/-- **A form that was encoded is kept**, unless the stream is stored as it is. -/
theorem encode_kept {raw bs : Bytes} {make : Unit → Except Fault Bytes}
    (h : (s.encode raw make).1 = .ok bs) (hplain : ¬ s.codec.isPlain = true) :
    (s.encode raw make).2.encoded = some bs := by
  unfold encode at h ⊢
  rw [if_neg hplain] at h ⊢
  cases hencoded : s.encoded with
  | some kept =>
      rw [hencoded] at h
      cases h
      exact hencoded
  | none =>
      rw [hencoded] at h
      dsimp only at h ⊢
      cases hmake : make () with
      | error e =>
          rw [hmake] at h
          cases h
      | ok made =>
          rw [hmake] at h
          cases h
          rfl

end Stage

namespace Column

/-! ## (2) Dictionaries that do not pay -/

/-- A dictionary that did not give way does not later, once the values are encoded. -/
theorem settle_again {rows : VariableColumn} {stage : Stage} {attributes : Attributes}
    {raw bs : Bytes} {make : Unit → Except Fault Bytes}
    (h : ((settle rows stage attributes).1.encode raw make).1 = .ok bs)
    (hcodec : ((settle rows stage attributes).1.encode raw make).2.codec =
      (settle rows stage attributes).1.codec) :
    settle rows ((settle rows stage attributes).1.encode raw make).2
      (settle rows stage attributes).2 =
      (((settle rows stage attributes).1.encode raw make).2, (settle rows stage attributes).2) := by
  generalize hsettled : settle rows stage attributes = settled at h hcodec ⊢
  have hstays : ¬ (settled.1.encode raw make).2.codec = .dictionary ∨
      (settled.1.encode raw make).2.encoded.isNone = false := by
    by_cases hdictionary : settled.1.codec = .dictionary
    · have hplain : ¬ settled.1.codec.isPlain = true := by
        rw [hdictionary]
        exact Bool.false_ne_true
      right
      rw [Stage.encode_kept h hplain]
      rfl
    · left
      rw [hcodec]
      exact hdictionary
  rw [settle, if_neg]
  rintro ⟨hdictionary, hnone, -⟩
  rcases hstays with hother | hkept
  · exact hother hdictionary
  · rw [hkept] at hnone
    cases hnone

variable {spec : ColumnSpec} {format : StorageFormat} {c c' : Column} {v : Bytes}
  {cells : List Cell}

/-- A valid alignment is one of a few. -/
theorem align_le (h : spec.validAlign = true) : 0 < spec.align ∧ spec.align ≤ 8 := by
  have hmem : spec.align ∈ [1, 2, 4, 8] := List.contains_iff_mem.mp h
  simp only [List.mem_cons, List.not_mem_nil, or_false] at hmem
  omega

/-- **A new column is made** for every specification whose alignment is valid. -/
theorem new_total (format : StorageFormat) (choice offsets : EncodingChoice)
    (attributes : Attributes) (h : spec.validAlign = true) :
    ∃ c, new spec format choice offsets attributes = .ok c := by
  have halign : spec.checkAlign = .ok () := by rw [ColumnSpec.checkAlign, if_pos h]
  unfold new
  rw [halign, ok_bind]
  cases hwidth : spec.kind.fixedWidth with
  | some width =>
      have hrows : FixedColumn.new spec format =
          .ok { kind := spec.kind, width, align := spec.align, format } := by
        rw [FixedColumn.new, hwidth]
        dsimp only
        rw [halign]
        rfl
      rw [Option.isSome_some, if_pos rfl, hrows]
      exact ⟨_, rfl⟩
  | none =>
      have hrows : VariableColumn.new spec format =
          .ok { kind := spec.kind, align := spec.align, format } := by
        rw [VariableColumn.new, hwidth, Option.isSome_none, if_neg Bool.false_ne_true, halign]
        rfl
      rw [Option.isSome_none, if_neg Bool.false_ne_true, hrows, ok_bind]
      split
      · exact ⟨_, rfl⟩
      · exact ⟨_, rfl⟩

variable [BlockLibrary]

/-! ## (3) Cells -/

/-- What a codec makes of the data of a column of fixed width. -/
def makeData (rows : FixedColumn) (codec : Codec) : Except Fault Bytes :=
  codec.encodeInts rows.ints rows.data.toList

/-- What a codec makes of the offsets of a column of variable length. -/
def makeOffsets (rows : VariableColumn) (codec : Codec) : Except Fault Bytes :=
  codec.encodeInts rows.offsetInts rows.offsetBytes

/-- **A column holds cells**: its rows do, and its stages keep its streams. A column of fixed width
stores no value out of line. -/
inductive Holds : Column → ColumnSpec → StorageFormat → List Cell → Prop
  /-- A column of fixed width. -/
  | fixed {rows : FixedColumn} {stage : Stage} {attributes : Attributes} {spec : ColumnSpec}
      {format : StorageFormat} {cells : List Cell}
      (hrows : rows.Holds spec format (cells.map Cell.value?))
      (hinside : ∀ cell ∈ cells, cell.isOutside = false)
      (hstage : stage.Keeps true .integers (makeData rows)) :
      Holds (.fixed rows stage attributes) spec format cells
  /-- A column of variable length. -/
  | varying {rows : VariableColumn} {stage offsetsStage : Stage} {attributes : Attributes}
      {spec : ColumnSpec} {format : StorageFormat} {cells : List Cell}
      (hrows : rows.Holds spec format cells)
      (hstage : stage.Keeps false .values (encodeValues rows))
      (hoffsets : offsetsStage.Keeps false .integers (makeOffsets rows)) :
      Holds (.varying rows stage offsetsStage attributes) spec format cells

/-- **A new column** holds no cells. -/
theorem new_spec {choice offsets : EncodingChoice} {attributes : Attributes}
    (h : new spec format choice offsets attributes = .ok c) : c.Holds spec format [] := by
  unfold new at h
  obtain ⟨-, -, h⟩ := bind_eq_ok h
  split at h
  · obtain ⟨rows, hrows, h⟩ := bind_eq_ok h
    cases h
    refine Holds.fixed (FixedColumn.new_spec hrows) (by simp) ?_
    split
    · exact Stage.keeps_plain _ _ _
    · have hresolve : ∀ shape, (shape = .integers ∨ shape = .scalars) →
          (Stage.resolve choice shape true).Keeps true .integers (makeData rows) := by
        rintro shape (rfl | rfl)
        · exact Stage.keeps_resolve choice .integers true _
        · have hscalars := Stage.keeps_resolve choice .scalars true (makeData rows)
          exact ⟨hscalars.reads, Codec.suits_integers hscalars.suits, hscalars.cached⟩
      refine hresolve _ ?_
      split
      · exact Or.inl rfl
      · exact Or.inr rfl
  · obtain ⟨rows, hrows, h⟩ := bind_eq_ok h
    split at h
    · cases h
      exact Holds.varying (VariableColumn.new_spec hrows) (Stage.keeps_plain _ _ _)
        (Stage.keeps_plain _ _ _)
    · cases h
      exact Holds.varying (VariableColumn.new_spec hrows) (Stage.keeps_resolve _ _ _ _)
        (Stage.keeps_resolve _ _ _ _)

/-! ## (4) Growth -/

/-- A successful change of the rows of a column of variable length. -/
theorem changeVarying_spec {rows : VariableColumn} {stage offsetsStage : Stage}
    {attributes : Attributes} {changed : Attempt VariableColumn}
    (hstage : stage.Keeps false .values (encodeValues rows))
    (hoffsets : offsetsStage.Keeps false .integers (makeOffsets rows))
    (hrows : ∀ rows', changed = (.ok (), rows') → rows'.Holds spec format cells)
    (h : changeVarying stage offsetsStage attributes changed = (.ok (), c')) :
    c'.Holds spec format cells := by
  obtain ⟨outcome, rows'⟩ := changed
  unfold changeVarying at h
  rw [Prod.mk.injEq] at h
  obtain ⟨hok, rfl⟩ := h
  have hok' : outcome = .ok () := hok
  rw [hok'] at hrows
  exact Holds.varying (hrows rows' rfl) (hstage.forget _) (hoffsets.forget _)

/-- **One more value** is one more cell. -/
theorem append_spec (hc : c.Holds spec format cells) (h : c.append v = (.ok (), c')) :
    c'.Holds spec format (cells ++ [.inline v]) := by
  cases hc with
  | @fixed rows stage attributes _ _ _ hrows hinside hstage =>
      rw [append, Prod.mk.injEq] at h
      obtain ⟨hok, rfl⟩ := h
      have hgrown := FixedColumn.append_spec hrows (Prod.ext hok rfl)
      refine Holds.fixed ?_ ?_ (hstage.forget _)
      · rw [List.map_append]
        exact hgrown
      · intro cell hcell
        rcases List.mem_append.mp hcell with hcell | hcell
        · exact hinside cell hcell
        · rw [List.mem_singleton.mp hcell]
          rfl
  | varying hrows hstage hoffsets =>
      exact changeVarying_spec hstage hoffsets
        (fun _ hgrown => VariableColumn.append_spec hrows hgrown) h

/-- **One more null row** is one more empty cell. -/
theorem appendNull_spec (hc : c.Holds spec format cells) (h : c.appendNull = (.ok (), c')) :
    c'.Holds spec format (cells ++ [.null]) := by
  cases hc with
  | fixed hrows hinside hstage =>
      cases h
      refine Holds.fixed ?_ ?_ (hstage.forget _)
      · rw [List.map_append]
        exact FixedColumn.appendNull_spec hrows
      · intro cell hcell
        rcases List.mem_append.mp hcell with hcell | hcell
        · exact hinside cell hcell
        · rw [List.mem_singleton.mp hcell]
          rfl
  | varying hrows hstage hoffsets =>
      exact changeVarying_spec hstage hoffsets
        (fun _ hgrown => VariableColumn.appendNull_spec hrows hgrown) h

/-- **One more value out of line** is one more cell that is stored there. -/
theorem appendToast_spec (hc : c.Holds spec format cells) (h : c.appendToast v = (.ok (), c')) :
    c'.Holds spec format (cells ++ [.outside v]) := by
  cases hc with
  | fixed => cases h
  | varying hrows hstage hoffsets =>
      exact changeVarying_spec hstage hoffsets
        (fun _ hgrown => VariableColumn.appendToast_spec hrows hgrown) h

/-- **Null rows up to a count** are as many empty cells. -/
theorem setRows_spec {count : Nat} (hc : c.Holds spec format cells)
    (h : c.setRows count = (.ok (), c')) :
    cells.length ≤ count ∧
      c'.Holds spec format (cells ++ List.replicate (count - cells.length) .null) := by
  -- rows are not taken away, and those that are added are null
  cases hc with
  | @fixed rows stage attributes _ _ _ hrows hinside hstage =>
      have hcount : rows.nulls.rows = cells.length := by
        rw [hrows.nulls_eq, Nulls.rows_ofMarks, List.length_map, List.length_map]
      rw [setRows, hcount] at h
      split at h
      · cases h
      · rename_i hle
        cases h
        refine ⟨Nat.not_lt.mp hle, Holds.fixed ?_ ?_ (hstage.forget _)⟩
        · rw [List.map_append, List.map_replicate]
          exact FixedColumn.appendNulls_spec _ hrows
        · intro cell hcell
          rcases List.mem_append.mp hcell with hcell | hcell
          · exact hinside cell hcell
          · rw [List.eq_of_mem_replicate hcell]
            rfl
  | @varying rows stage offsetsStage attributes _ _ _ hrows hstage hoffsets =>
      have hcount : rows.nulls.rows = cells.length := by
        rw [hrows.nulls_eq, Nulls.rows_ofMarks, List.length_map]
      rw [setRows, hcount] at h
      by_cases hlt : count < cells.length
      · rw [if_pos hlt] at h
        cases h
      · rw [if_neg hlt] at h
        exact ⟨Nat.not_lt.mp hlt, changeVarying_spec hstage hoffsets
          (fun _ hgrown => VariableColumn.appendNulls_spec hrows hgrown) h⟩

/-! ## (5) What a column that holds cells says -/

/-- The null rows of a column are those of its cells. -/
theorem Holds.nulls_eq (hc : c.Holds spec format cells) :
    c.nulls = Nulls.ofMarks (cells.map Cell.notNull) := by
  cases hc with
  | fixed hrows _ _ =>
      have hmarks : (cells.map Cell.value?).map Option.isSome = cells.map Cell.notNull := by
        rw [List.map_map]
        refine List.map_congr_left fun cell _ => ?_
        cases cell <;> rfl
      rw [← hmarks]
      exact hrows.nulls_eq
  | varying hrows _ _ => exact hrows.nulls_eq

/-- A column has as many rows as cells. -/
theorem Holds.rows_eq (hc : c.Holds spec format cells) : c.rows = cells.length := by
  rw [rows, hc.nulls_eq, Nulls.rows_ofMarks, List.length_map]

/-- The kind of a column is that of its specification. -/
theorem Holds.kind_eq (hc : c.Holds spec format cells) : c.kind = spec.kind := by
  cases hc with
  | fixed hrows _ _ => exact hrows.kind_eq
  | varying hrows _ _ => exact hrows.kind_eq

/-- What a column stores out of line is what its cells do. -/
theorem Holds.external_eq (hc : c.Holds spec format cells) : c.external = externalOf cells := by
  cases hc with
  | fixed _ hinside _ =>
      have hnone : externalOf cells = [] := by
        rw [externalOf, List.flatMap_eq_nil_iff]
        intro cell hcell
        have hcell' := hinside cell hcell
        cases cell with
        | outside v => cases hcell'
        | null => rfl
        | inline v => rfl
      rw [hnone]
      rfl
  | varying hrows _ _ => exact hrows.external_eq

/-- The rows that hold references are those of the cells that are stored out of line. -/
theorem Holds.toastRows_eq (hc : c.Holds spec format cells) :
    c.toastRows = VariableColumn.toastOf cells := by
  cases hc with
  | fixed _ hinside _ =>
      have hnone : cells.any Cell.isOutside = false := by
        rw [List.any_eq_false]
        intro cell hcell
        rw [hinside cell hcell]
        exact Bool.false_ne_true
      rw [VariableColumn.toastOf, hnone]
      rfl
  | varying hrows _ _ => exact hrows.toast_eq

/-- **The value of a row** is what its cell stores, if it is not null. -/
theorem Holds.value_eq (hc : c.Holds spec format cells) {row : Nat} {cell : Cell}
    (h : cells[row]? = some cell) :
    c.value row =
      .ok (if cell.notNull then some (cell.stored (externalOf (cells.take row)).length)
      else none) := by
  cases hc with
  | fixed hrows hinside _ =>
      have hinside' := hinside cell (List.mem_of_getElem? h)
      have hcell : (cells.map Cell.value?)[row]? = some cell.value? := by
        rw [List.getElem?_map, h]
        rfl
      refine (FixedColumn.value_spec hrows hcell).trans ?_
      cases cell with
      | null => rfl
      | inline v => rfl
      | outside v => cases hinside'
  | varying hrows _ _ => exact VariableColumn.value_spec hrows h

/-! ## (6) Encoding -/

/-- A dictionary that gives way gives way to a stage that keeps the values. -/
theorem settle_keeps {rows : VariableColumn} {stage : Stage} (attributes : Attributes)
    (h : stage.Keeps false .values (encodeValues rows)) :
    (settle rows stage attributes).1.Keeps false .values (encodeValues rows) := by
  unfold settle
  split
  · exact Stage.keeps_resolve fallback .values false _
  · exact h

/-- **Encoding the streams** keeps the cells. -/
theorem encodeData_holds (hc : c.Holds spec format cells) :
    c.encodeData.2.Holds spec format cells := by
  cases hc with
  | fixed hrows hinside hstage =>
      exact Holds.fixed hrows hinside (Stage.encode_spec hstage _ rfl).2.2.2
  | varying hrows hstage hoffsets =>
      exact Holds.varying hrows (Stage.encode_spec (settle_keeps _ hstage) _ rfl).2.2.2 hoffsets

/-- **Offsets that are encoded** leave the cells as they are. -/
theorem encodeOffsets_holds (hc : c.Holds spec format cells) :
    c.encodeOffsets.2.Holds spec format cells := by
  cases hc with
  | fixed hrows hinside hstage => exact Holds.fixed hrows hinside hstage
  | varying hrows hstage hoffsets =>
      exact Holds.varying hrows hstage (Stage.encode_spec hoffsets _ rfl).2.2.2

/-- **Encoding again** gives the same streams and changes nothing more. -/
theorem encode_twice {c₁ c₂ : Column} {data : Bytes} {offsets : Option Bytes}
    (hc : c.Holds spec format cells) (hdata : c.encodeData = (.ok data, c₁))
    (hoffsets : c₁.encodeOffsets = (.ok offsets, c₂)) :
    c₂.encodeData = (.ok data, c₂) ∧ c₂.encodeOffsets = (.ok offsets, c₂) := by
  -- what was encoded is kept, and is given again as it is
  cases hc with
  | @fixed rows stage attributes _ _ _ hrows hinside hstage =>
      rw [encodeData, Prod.mk.injEq] at hdata
      obtain ⟨hok, rfl⟩ := hdata
      rw [encodeOffsets, Prod.mk.injEq] at hoffsets
      obtain ⟨hok', rfl⟩ := hoffsets
      refine ⟨?_, Prod.ext hok' rfl⟩
      rw [encodeData]
      dsimp only
      rw [Stage.encode_again hok]
  | @varying rows stage offsetsStage attributes _ _ _ hrows hstage hoffsetsStage =>
      have hcodec := (Stage.encode_spec (settle_keeps attributes hstage)
        rows.data.toList rfl).2.1
      rw [encodeData, Prod.mk.injEq] at hdata
      obtain ⟨hok, rfl⟩ := hdata
      rw [encodeOffsets, Prod.mk.injEq] at hoffsets
      obtain ⟨hok', rfl⟩ := hoffsets
      obtain ⟨offsetsSrc, hsrc, rfl⟩ := map_eq_ok hok'
      constructor
      · rw [encodeData]
        dsimp only
        rw [settle_again hok hcodec]
        dsimp only
        rw [Stage.encode_again hok]
      · rw [encodeOffsets]
        dsimp only
        rw [Stage.encode_again hsrc]
        rfl

/-- Encoding changes neither the rows nor what is out of line. -/
theorem encode_keeps {c₁ c₂ : Column} {data : Bytes} {offsets : Option Bytes}
    (hdata : c.encodeData = (.ok data, c₁)) (hoffsets : c₁.encodeOffsets = (.ok offsets, c₂)) :
    c₂.nulls = c.nulls ∧ c₂.toastRows = c.toastRows ∧ c₂.external = c.external ∧
      c₂.align = c₁.align := by
  have hfirst : c₁ = c.encodeData.2 := by rw [hdata]
  have hsecond : c₂ = c₁.encodeOffsets.2 := by rw [hoffsets]
  rw [hsecond, hfirst]
  cases c with
  | fixed rows stage attributes => exact ⟨rfl, rfl, rfl, rfl⟩
  | varying rows stage offsetsStage attributes => exact ⟨rfl, rfl, rfl, rfl⟩

end Column

end ColumnFile
