import ColumnFile.Proofs.Column.Contents
import ColumnFile.Proofs.Column.RoundTrip
import ColumnFile.Proofs.Column.Untrusted

/-! # Steps that a column refuses

A column of fixed width looks at a value before it takes it. A column of variable length takes the
octets first and then ends the row, which fails once the data are past what an offset can count: the
octets stay behind the rows, and no row is added from then on.

* **`Column.Reached`** — the columns that calls of all kinds lead to, whatever comes of each.
* **`Column.Coherent`** — what holds of them: a stage keeps what its codec makes, and no offset is
  past the data.
* **`ColumnSet.Step.adds`** — the octets that a step lays behind the data before it can fail.
* **`Column.Untouched`** — a column that can not be told from the one it was.
* **`Column.attempt_failed`** — what a failed step leaves; it is the column as it was exactly when
  the step adds no octets. -/

namespace ColumnFile

/-! ## (1) Rows of variable length -/

namespace VariableColumn

variable {c c' : VariableColumn} {e : Fault} {v : Bytes} {row start len first last : Nat}

/-- **No offset is past the data.** -/
def Within (c : VariableColumn) : Prop := ∀ i, c.offset i ≤ c.data.size

/-- The column with octets behind its data and behind what is out of line. -/
def extend (c : VariableColumn) (more outside : Bytes) : VariableColumn :=
  { c with data := c.data ++ more, external := c.external ++ outside }

/-- A column grows by what is added. -/
theorem size_extend (c : VariableColumn) (more outside : Bytes) :
    (c.extend more outside).data.size = c.data.size + more.length := by
  rw [Rope.size_eq, Rope.size_eq, extend, Rope.toList_append, List.length_append]

/-- Nothing that is added changes nothing. -/
theorem extend_nil (c : VariableColumn) : c.extend [] [] = c := by
  have hdata : c.data ++ ([] : Bytes) = c.data :=
    Rope.ext (by rw [Rope.toList_append, List.append_nil])
  have hexternal : c.external ++ ([] : Bytes) = c.external := by simp
  rw [extend, hdata, hexternal]

/-- A row that is appended is octets that are added, and the end of a row. -/
theorem append_eq (c : VariableColumn) (v : Bytes) :
    c.append v = (c.extend v []).endRow true false := by
  rw [append, extend, show c.external ++ ([] : Bytes) = c.external by simp]

/-- Reads that stay inside are at offsets that are not past the data. -/
theorem Inside.within (h : c.Inside) : c.Within := by
  intro i
  by_cases hi : i ≤ c.nulls.rows
  · have hle := h.ascend i c.nulls.rows hi (Nat.le_refl _)
    rwa [h.last] at hle
  · rw [offset, Array.getD_eq_getD_getElem?, Array.getElem?_eq_none (by rw [h.offsets]; omega)]
    exact Nat.zero_le _

/-- The one offset of a new column is at the start. -/
theorem new_within {spec : ColumnSpec} {format : StorageFormat} (h : new spec format = .ok c) :
    c.Within := by
  have hoffsets : c.offsets.toList = [0] := (new_spec h).offsets_eq
  intro i
  rw [offset_eq, hoffsets]
  cases i with
  | zero => exact Nat.zero_le _
  | succ i => exact Nat.zero_le _

/-- **Rows stay within the data** when octets are added. -/
theorem Within.extend (h : c.Within) (more outside : Bytes) : (c.extend more outside).Within := by
  intro i
  rw [size_extend]
  exact Nat.le_add_right_of_le (h i)

/-- **Octets behind the rows** are not read. -/
theorem Within.span_extend (h : c.Within) (more outside : Bytes) (first last : Nat) :
    (c.extend more outside).span first last = c.span first last := by
  have hlast := h last
  rw [Rope.size_eq] at hlast
  rw [span_eq, span_eq]
  show (((c.data ++ more).toList).drop (c.offset first)).take (c.offset last - c.offset first) = _
  rw [Rope.toList_append, List.drop_append, List.take_append_of_le_length]
  rw [List.length_drop]
  omega

/-- The value of a row stays when octets are added. -/
theorem Within.value_extend (h : c.Within) (more outside : Bytes) (row : Nat) :
    (c.extend more outside).value row = c.value row := by
  rw [value, value, h.span_extend]
  rfl

/-- The octets of a range stay when octets are added. -/
theorem Within.range_extend (h : c.Within) (more outside : Bytes) (start len : Nat) :
    (c.extend more outside).range start len = c.range start len := by
  rw [range, range]
  simp only [h.span_extend]
  rfl

/-- **A column is full** when its data are past what an offset can count. -/
def Full (c : VariableColumn) : Prop := 2 ^ 32 ≤ c.data.size

/-- A column that is full ends no row, and is left alone. -/
theorem Full.endRow (h : c.Full) (notNull toasted : Bool) :
    c.endRow notNull toasted = (.error .offsetsOverflow, c) := if_pos h

/-- A column that is not full ends every row. -/
theorem endRow_of_not_full (h : ¬ c.Full) (notNull toasted : Bool) :
    (c.endRow notNull toasted).1 = .ok () :=
  congrArg Prod.fst (if_neg h)

/-- A column stays full when octets are added. -/
theorem Full.extend (h : c.Full) (more outside : Bytes) : (c.extend more outside).Full := by
  rw [Full, size_extend]
  exact Nat.le_add_right_of_le h

/-- **A row is not ended** only if the column is full, and leaves it alone. -/
theorem endRow_failed {notNull toasted : Bool} (h : c.endRow notNull toasted = (.error e, c')) :
    c' = c ∧ c.Full := by
  by_cases hfull : c.Full
  · rw [hfull.endRow] at h
    cases h
    exact ⟨rfl, hfull⟩
  · have hok := endRow_of_not_full hfull notNull toasted
    rw [h] at hok
    cases hok

/-- A row that ends adds no octets. -/
theorem data_endRow (c : VariableColumn) (notNull toasted : Bool) :
    (c.endRow notNull toasted).2.data = c.data := by
  unfold endRow
  split <;> rfl

/-- A row that is ended ends where the data do. -/
theorem offsets_endRow (h : ¬ c.Full) (notNull toasted : Bool) :
    (c.endRow notNull toasted).2.offsets = c.offsets.push (UInt32.ofNat c.data.size) :=
  congrArg (fun grown : Attempt VariableColumn => grown.2.offsets) (if_neg h)

/-- **Rows stay within the data** when one of them ends. -/
theorem Within.endRow (h : c.Within) (notNull toasted : Bool) :
    (c.endRow notNull toasted).2.Within := by
  by_cases hfull : c.Full
  · rw [hfull.endRow]
    exact h
  · intro i
    have hle := h i
    rw [offset, Array.getD_eq_getD_getElem?] at hle
    rw [data_endRow, offset, offsets_endRow hfull, Array.getD_eq_getD_getElem?, Array.getElem?_push]
    split
    · exact Nat.le_of_eq (UInt32.toNat_ofNat_of_lt' (Nat.lt_of_not_le hfull))
    · exact hle

/-- Null rows add no octets, so there is room for all of them as for the first. -/
theorem appendNulls_of_not_full (h : ¬ c.Full) (n : Nat) : (appendNulls n c).1 = .ok () := by
  induction n generalizing c with
  | zero => rfl
  | succ n ih =>
      have hok := endRow_of_not_full h false false
      have hdata := c.data_endRow false false
      rw [appendNulls, appendNull]
      generalize c.endRow false false = ended at hok hdata
      obtain ⟨outcome, grown⟩ := ended
      cases hok
      refine ih fun hfull => h ?_
      rw [Full, ← hdata]
      exact hfull

/-- A column that is full takes no null row. -/
theorem Full.appendNulls (h : c.Full) (n : Nat) : (appendNulls n c).2 = c := by
  cases n with
  | zero => rfl
  | succ n => rw [VariableColumn.appendNulls, appendNull, h.endRow]

/-- **Nulls that fail** change nothing, since the column is full. -/
theorem appendNulls_failed {n : Nat} (h : appendNulls n c = (.error e, c')) : c' = c ∧ c.Full := by
  by_cases hfull : c.Full
  · have hsame := hfull.appendNulls n
    rw [h] at hsame
    exact ⟨hsame, hfull⟩
  · have hok := appendNulls_of_not_full hfull n
    rw [h] at hok
    cases hok

/-- **Rows stay within the data** behind nulls. -/
theorem Within.appendNulls (h : c.Within) (n : Nat) : (appendNulls n c).2.Within := by
  induction n generalizing c with
  | zero => exact h
  | succ n ih =>
      have hnull := h.endRow false false
      rw [VariableColumn.appendNulls]
      split
      · rename_i grown hgrown
        rw [show (c.endRow false false).2 = grown from congrArg Prod.snd hgrown] at hnull
        exact ih hnull
      · rename_i e grown hgrown
        rw [show (c.endRow false false).2 = grown from congrArg Prod.snd hgrown] at hnull
        exact hnull

end VariableColumn

/-! ## (2) What a failed step leaves -/

namespace ColumnSet.Step

variable {step : Step} {rows rows' : VariableColumn} {stage offsetsStage : Stage}
  {attributes : Attributes}
  {e : Fault}

/-- What a step makes of rows of variable length. -/
def grow : Step → VariableColumn → Attempt VariableColumn
  | append value, rows => rows.append value
  | appendNull, rows => rows.appendNull
  | appendToast value, rows => rows.appendToast value
  | setRows count, rows =>
    if count < rows.nulls.rows then (.error .shrinkingRows, rows)
    else rows.appendNulls (count - rows.nulls.rows)

/-- What is attempted of a column of varying width is done to its rows. -/
theorem attempt_varying (step : Step) : step.attempt (.varying rows stage offsetsStage attributes) =
    Column.changeVarying stage offsetsStage attributes (step.grow rows) := by
  cases step <;> rfl

/-- **The octets that a step adds** to the data of a column before it ends the row. -/
def adds : Step → Column → Bytes
  | append value, .varying .. => value
  | appendToast value, .varying rows .. => Column.reference rows.external.toList value
  | _, _ => []

/-- The octets that a step stores out of line before it ends the row. -/
def addsOutside : Step → Column → Bytes
  | appendToast value, .varying .. => value
  | _, _ => []

/-- A step that adds no octets to the data stores none out of line: it would leave a reference. -/
theorem addsOutside_of_adds {c : Column} (h : step.adds c = []) : step.addsOutside c = [] := by
  cases c with
  | fixed => cases step <;> rfl
  | varying rows stage offsetsStage attributes =>
      cases step with
      | appendToast value =>
          have hlength := congrArg List.length h
          rw [adds, Column.reference, ToastRef.length_encode] at hlength
          cases hlength
      | append value => rfl
      | appendNull => rfl
      | setRows count => rfl

/-- **Rows whose step fails** are left with what the step adds behind them; if that is anything,
they are full. -/
theorem grow_failed (h : step.grow rows = (.error e, rows')) {c : Column}
    (hc : c = .varying rows stage offsetsStage attributes) :
    rows' = rows.extend (step.adds c) (step.addsOutside c) ∧ (step.adds c ≠ [] → rows'.Full) := by
  subst hc
  cases step with
  | append value =>
      rw [grow, VariableColumn.append_eq] at h
      obtain ⟨rfl, hfull⟩ := VariableColumn.endRow_failed h
      exact ⟨rfl, fun _ => hfull⟩
  | appendNull =>
      obtain ⟨rfl, -⟩ := VariableColumn.endRow_failed h
      exact ⟨rows'.extend_nil.symm, fun hadds => absurd rfl hadds⟩
  | appendToast value =>
      obtain ⟨rfl, hfull⟩ := VariableColumn.endRow_failed h
      exact ⟨rfl, fun _ => hfull⟩
  | setRows count =>
      have hsame : rows' = rows := by
        rw [grow] at h
        split at h
        · cases h
          rfl
        · exact (VariableColumn.appendNulls_failed h).1
      exact ⟨hsame.trans rows.extend_nil.symm, fun hadds => absurd rfl hadds⟩

/-- No step leaves an offset past the data. -/
theorem grow_within (step : Step) (h : rows.Within) : (step.grow rows).2.Within := by
  cases step with
  | append value =>
      rw [grow, VariableColumn.append_eq]
      exact (h.extend value []).endRow true false
  | appendNull => exact h.endRow false false
  | appendToast value => exact (h.extend _ value).endRow true true
  | setRows count =>
      rw [grow]
      split
      · exact h
      · exact h.appendNulls _

/-- **A step leaves full rows** full, and adds none. -/
theorem grow_full (step : Step) (h : rows.Full) :
    (step.grow rows).2.Full ∧ (step.grow rows).2.nulls = rows.nulls := by
  cases step with
  | append value =>
      have hfull := h.extend value []
      rw [grow, VariableColumn.append_eq, hfull.endRow]
      exact ⟨hfull, rfl⟩
  | appendNull =>
      rw [grow, VariableColumn.appendNull, h.endRow]
      exact ⟨h, rfl⟩
  | appendToast value =>
      have hfull := h.extend (Column.reference rows.external.toList value) value
      rw [grow, show rows.appendToast value = _ from hfull.endRow true true]
      exact ⟨hfull, rfl⟩
  | setRows count =>
      rw [grow]
      split
      · exact ⟨h, rfl⟩
      · rw [h.appendNulls]
        exact ⟨h, rfl⟩

end ColumnSet.Step

namespace Column

open ColumnSet (Step)

variable {rows : VariableColumn} {stage offsetsStage : Stage} {attributes : Attributes}
  {step : Step}
  {c c' : Column} {e : Fault}

/-- **A column of fixed width** is left as it was, though it may have forgotten its encoded form. -/
theorem attempt_failed_fixed {rows : FixedColumn}
    (h : step.attempt (fixed rows stage attributes) = (.error e, c')) :
    ∃ stage', (stage' = stage ∨ stage' = stage.forget) ∧ c' = fixed rows stage' attributes := by
  cases step with
  | append value =>
      rw [Step.attempt, append] at h
      by_cases hwidth : value.length = rows.width
      · rw [FixedColumn.append, if_neg (fun hne => hne hwidth)] at h
        cases h
      · rw [FixedColumn.append, if_pos hwidth] at h
        cases h
        exact ⟨_, .inr rfl, rfl⟩
  | appendNull => cases h
  | appendToast value =>
      cases h
      exact ⟨_, .inl rfl, rfl⟩
  | setRows count =>
      rw [Step.attempt, setRows] at h
      split at h
      · cases h
        exact ⟨_, .inr rfl, rfl⟩
      · cases h

/-- **A column of variable length** is left with what the step adds behind its rows; if that is
anything, it is full. -/
theorem attempt_failed_varying (hc : c = varying rows stage offsetsStage attributes)
    (h : step.attempt c = (.error e, c')) :
    c' = varying (rows.extend (step.adds c) (step.addsOutside c)) stage.forget offsetsStage.forget
      attributes ∧
      (step.adds c ≠ [] → (rows.extend (step.adds c) (step.addsOutside c)).Full) := by
  rw [hc, Step.attempt_varying, changeVarying, Prod.mk.injEq] at h
  obtain ⟨herror, rfl⟩ := h
  obtain ⟨hrows, hfull⟩ := Step.grow_failed (Prod.ext herror rfl) hc
  rw [← hrows]
  exact ⟨rfl, hfull⟩

variable [BlockLibrary]

/-! ## (3) Columns that calls lead to -/

/-- **A column is coherent**: what its stages keep is what their codecs make of the rows as they
are, a dictionary that is kept pays, and no offset is past the data. -/
def Coherent : Column → Prop
  | fixed rows stage _ => stage.Caches (makeData rows)
  | varying rows stage offsetsStage attributes =>
    stage.Caches (encodeValues rows) ∧ offsetsStage.Caches (makeOffsets rows) ∧
      (varying rows stage offsetsStage attributes).DictionaryPaid ∧ rows.Within

/-- The column with other attributes. -/
def withAttributes (c : Column) (attributes : Attributes) : Column :=
  match c with
  | fixed rows stage _ => fixed rows stage attributes
  | varying rows stage offsetsStage _ => varying rows stage offsetsStage attributes

/-- **The columns that calls lead to**, from a new column or one that was decoded on, whatever comes
of each call. -/
inductive Reached : Column → Prop
  /-- A new column, whatever its description, encodings and attributes. -/
  | new {spec : ColumnSpec} {format : StorageFormat} {choice offsets : EncodingChoice}
  {attributes : Attributes}
      {c : Column} (h : Column.new spec format choice offsets attributes = .ok c) : Reached c
  /-- A column that was decoded from any streams. -/
  | decoded {spec : ColumnSpec} {format : StorageFormat} {encoding : ColumnEncoding} {rows : Nat}
      {streams : ColumnStreams} {c : Column}
      (h : decode spec format encoding rows streams = .ok c) : Reached c
  /-- A step of growth, which succeeds or not. -/
  | attempt {c : Column} (hc : Reached c) (step : Step) : Reached (step.attempt c).2
  /-- The data stream is asked for, and made or not. -/
  | encodeData {c : Column} (hc : Reached c) : Reached c.encodeData.2
  /-- The offsets stream is asked for, and made or not. -/
  | encodeOffsets {c : Column} (hc : Reached c) : Reached c.encodeOffsets.2
  /-- The attributes are changed. -/
  | withAttributes {c : Column} (hc : Reached c) (attributes : Attributes) :
      Reached (c.withAttributes attributes)

/-- A column that has encoded nothing is coherent. -/
theorem coherent_of_fresh (hstage : stage.encoded = none) (hoffsets : offsetsStage.encoded = none)
    (hwithin : rows.Within) : (varying rows stage offsetsStage attributes).Coherent :=
  ⟨Stage.caches_of_empty hstage, Stage.caches_of_empty hoffsets, dictionaryPaid_of_empty hstage,
    hwithin⟩

/-- **A new column** is coherent. -/
theorem new_coherent {spec : ColumnSpec} {format : StorageFormat} {choice offsets : EncodingChoice}
    (h : new spec format choice offsets attributes = .ok c) : c.Coherent := by
  unfold new at h
  obtain ⟨-, -, h⟩ := bind_eq_ok h
  split at h
  · obtain ⟨rows, -, h⟩ := bind_eq_ok h
    cases h
    refine Stage.caches_of_empty ?_
    split
    · rfl
    · rfl
  · obtain ⟨rows, hrows, h⟩ := bind_eq_ok h
    have hwithin := VariableColumn.new_within hrows
    split at h
    · cases h
      exact coherent_of_fresh rfl rfl hwithin
    · cases h
      exact coherent_of_fresh rfl rfl hwithin

/-- **A column that is decoded** is coherent. -/
theorem decode_coherent {spec : ColumnSpec} {format : StorageFormat} {encoding : ColumnEncoding}
    {count : Nat} {streams : ColumnStreams}
    (h : decode spec format encoding count streams = .ok c) : c.Coherent := by
  obtain ⟨nulls, hmarked, ⟨data, rows, codec, -, hdata, rfl⟩ |
    ⟨data, offsets, toast, rows, codec, offsetsCodec, htidy, -, -, hdata, rfl⟩⟩ := decode_cases h
  · exact Stage.caches_of_empty rfl
  · exact coherent_of_fresh rfl rfl (VariableColumn.ofData_inside hmarked htidy hdata).within

/-- **A column stays coherent**, whatever is attempted. -/
theorem attempt_coherent (step : Step) (hc : c.Coherent) : (step.attempt c).2.Coherent := by
  cases c with
  | fixed rows stage attributes =>
      cases step with
      | append value => exact Stage.caches_of_empty rfl
      | appendNull => exact Stage.caches_of_empty rfl
      | appendToast value => exact hc
      | setRows count =>
          rw [Step.attempt, setRows]
          split
          · exact Stage.caches_of_empty rfl
          · exact Stage.caches_of_empty rfl
  | varying rows stage offsetsStage attributes =>
      rw [Step.attempt_varying]
      exact coherent_of_fresh rfl rfl (step.grow_within hc.2.2.2)

/-- A stage that is settled caches what was made of the rows. -/
theorem settle_caches (h : stage.Caches (encodeValues rows)) :
    (settle rows stage attributes).1.Caches (encodeValues rows) := by
  unfold settle
  split
  · exact Stage.caches_of_empty rfl
  · exact h

/-- **A column stays coherent** when its data are encoded. -/
theorem encodeData_coherent (hc : c.Coherent) : c.encodeData.2.Coherent := by
  cases c with
  | fixed rows stage attributes => exact Stage.Caches.encode_caches hc _
  | varying rows stage offsetsStage attributes =>
      obtain ⟨hstage, hoffsets, hpaid, hwithin⟩ := hc
      have hcodec := ((settle rows stage attributes).1.encode_same rows.data.toList fun _ =>
        encodeValues rows (settle rows stage attributes).1.codec).1
      refine ⟨(settle_caches hstage).encode_caches _, hoffsets, ?_, hwithin⟩
      intro hdictionary _
      exact settle_pays hpaid (hcodec.symm.trans hdictionary)

/-- **A column stays coherent** when its offsets are encoded. -/
theorem encodeOffsets_coherent (hc : c.Coherent) : c.encodeOffsets.2.Coherent := by
  cases c with
  | fixed rows stage attributes => exact hc
  | varying rows stage offsetsStage attributes =>
      obtain ⟨hstage, hoffsets, hpaid, hwithin⟩ := hc
      exact ⟨hstage, hoffsets.encode_caches _, hpaid, hwithin⟩

/-- **Every such column** is coherent. -/
theorem Reached.coherent (h : Reached c) : c.Coherent := by
  induction h with
  | new h => exact new_coherent h
  | decoded h => exact decode_coherent h
  | attempt _ step ih => exact attempt_coherent step ih
  | encodeData _ ih => exact encodeData_coherent ih
  | encodeOffsets _ ih => exact encodeOffsets_coherent ih
  | @withAttributes c _ attributes ih =>
      cases c with
      | fixed rows stage _ => exact ih
      | varying rows stage offsetsStage _ => exact ih

/-! ## (4) Columns that can not be told apart -/

/-- **The same rows**: as many, the same ones null, the same ones out of line, and the same values
and offsets. -/
structure SameRows (c' c : Column) : Prop where
  nulls : c'.nulls = c.nulls
  toastRows : c'.toastRows = c.toastRows
  value : ∀ row, c'.value row = c.value row
  range : ∀ start len, c'.range start len = c.range start len
  offsets : c'.encodeOffsets.1 = c.encodeOffsets.1

/-- **A column is untouched** if it has the same rows, the same data, encoded and not, and the same
octets out of line, and every step comes out as it would have. -/
structure Untouched (c' c : Column) : Prop extends c'.SameRows c where
  rawData : c'.rawData = c.rawData
  data : c'.encodeData.1 = c.encodeData.1
  external : c'.external = c.external
  outcome : ∀ step : Step, (step.attempt c').1 = (step.attempt c).1

/-- Encoded offsets that were forgotten are made again from the same offsets. -/
theorem encodeOffsets_forget {rows' : VariableColumn} (hoffsets : rows'.offsets = rows.offsets)
    (hc : offsetsStage.Caches (makeOffsets rows)) :
    (varying rows' stage.forget offsetsStage.forget attributes).encodeOffsets.1 =
      (varying rows stage offsetsStage attributes).encodeOffsets.1 := by
  have hbytes : rows'.offsetBytes = rows.offsetBytes := by
    rw [VariableColumn.offsetBytes, hoffsets]; rfl
  have hints : rows'.offsetInts = rows.offsetInts := by
    rw [VariableColumn.offsetInts, hoffsets]; rfl
  have hmake := hc.encode_forget rows.offsetBytes
  rw [encodeOffsets, encodeOffsets, hbytes, hints]
  exact congrArg (Except.map some) hmake

omit [BlockLibrary] in
/-- Forgetting an encoded form changes nothing in whether a dictionary gives way. -/
theorem settle_forget (hpaid : (varying rows stage offsetsStage attributes).DictionaryPaid) :
    settle rows stage.forget attributes =
      ((settle rows stage attributes).1.forget, (settle rows stage attributes).2) := by
  by_cases hkept : stage.codec = .dictionary ∧ stage.encoded.isSome = true
  · have hpays := hpaid hkept.1 hkept.2
    rw [settle_of_pays attributes fun _ => hpays, settle_of_pays attributes fun _ => hpays]
  · -- there is nothing to forget, or no dictionary that could give way
    by_cases hdictionary : stage.codec = .dictionary
    · have hnone : stage.encoded = none := by
        rw [← Option.not_isSome_iff_eq_none]
        exact fun hsome => hkept ⟨hdictionary, hsome⟩
      have hforget : stage.forget = stage := by rw [Stage.forget, ← hnone]
      rw [hforget]
      unfold settle
      split
      · rfl
      · rw [hforget]
    · rw [settle, settle, if_neg fun h => hdictionary h.1, if_neg fun h => hdictionary h.1]

/-- Encoded data that were forgotten are made again. -/
theorem encodeData_forget (hc : (varying rows stage offsetsStage attributes).Coherent)
    (offsetsStage' : Stage) :
    (varying rows stage.forget offsetsStage' attributes).encodeData.1 =
      (varying rows stage offsetsStage attributes).encodeData.1 := by
  obtain ⟨hstage, -, hpaid, -⟩ := hc
  rw [encodeData, encodeData, settle_forget hpaid]
  exact (settle_caches hstage).encode_forget rows.data.toList

/-- A column of fixed width that has forgotten its encoded form is as it was. -/
theorem untouched_fixed {rows : FixedColumn} {stage' : Stage}
    (hc : (fixed rows stage attributes).Coherent)
    (hstage : stage' = stage ∨ stage' = stage.forget) :
    (fixed rows stage' attributes).Untouched (fixed rows stage attributes) := by
  refine ⟨⟨rfl, rfl, fun _ => rfl, fun _ _ => rfl, rfl⟩, rfl, ?_, rfl, ?_⟩
  · rcases hstage with rfl | rfl
    · rfl
    · exact Stage.Caches.encode_forget hc rows.data.toList
  · intro step
    cases step with
    | append value => rfl
    | appendNull => rfl
    | appendToast value => rfl
    | setRows count =>
        rw [Step.attempt, Step.attempt, setRows, setRows]
        split <;> rfl

/-- A column of variable length that has forgotten its encoded forms is as it was. -/
theorem untouched_varying (hc : (varying rows stage offsetsStage attributes).Coherent) :
    (varying rows stage.forget offsetsStage.forget attributes).Untouched
      (varying rows stage offsetsStage attributes) := by
  refine ⟨⟨rfl, rfl, fun _ => rfl, fun _ _ => rfl, encodeOffsets_forget rfl hc.2.1⟩, rfl,
    encodeData_forget hc _, rfl, fun step => ?_⟩
  rw [Step.attempt_varying, Step.attempt_varying]
  rfl

/-- Octets behind the rows leave the rows as they were. -/
theorem sameRows_extend (hc : (varying rows stage offsetsStage attributes).Coherent)
    (more outside : Bytes) :
    (varying (rows.extend more outside) stage.forget offsetsStage.forget attributes).SameRows
      (varying rows stage offsetsStage attributes) := by
  obtain ⟨-, hoffsets, -, hwithin⟩ := hc
  exact ⟨rfl, rfl, hwithin.value_extend more outside, hwithin.range_extend more outside,
    encodeOffsets_forget rfl hoffsets⟩

/-! ## (5) Failed steps -/

/-- **Steps behind one another**, whatever comes of each. -/
def afterSteps (c : Column) (steps : List Step) : Column :=
  steps.foldl (fun c step => (step.attempt c).2) c

omit [BlockLibrary] in
/-- **A column that is full** gets no more rows, whatever steps follow. -/
theorem nulls_afterSteps (hfull : rows.Full) (steps : List Step) :
    ((varying rows stage offsetsStage attributes).afterSteps steps).nulls = rows.nulls := by
  induction steps generalizing rows stage offsetsStage with
  | nil => rfl
  | cons step steps ih =>
      obtain ⟨hgrown, hnulls⟩ := step.grow_full hfull
      rw [afterSteps, List.foldl_cons, Step.attempt_varying]
      exact (ih hgrown).trans hnulls

/-- **Failed steps.** Let a step of growth fail on a column that calls of any kind have led to, from
a new column or a decoded one on. The rows, their values, the offsets and the marks of references
are as they were. The data and what is out of line are longer by what the step added before it
failed. The column can not be told from what it was exactly when the step adds no octets: so for
every column of fixed width, and for null rows and empty values. If the step adds octets, the data
are past what an offset can count, and no row is added whatever steps follow, null rows included. -/
theorem attempt_failed (hc : c.Reached) (h : step.attempt c = (.error e, c')) :
    c'.SameRows c ∧ c'.rawData = c.rawData ++ step.adds c ∧
    c'.external = c.external ++ step.addsOutside c ∧
      (c'.Untouched c ↔ step.adds c = []) ∧
      (step.adds c ≠ [] → 2 ^ 32 ≤ c'.rawData.length ∧
        ∀ steps, (c'.afterSteps steps).nulls = c'.nulls) := by
  have hcoherent := hc.coherent
  -- a column of fixed width refuses before anything is added
  cases c with
  | fixed rows stage attributes =>
      obtain ⟨stage', hstage, rfl⟩ := attempt_failed_fixed h
      have huntouched := untouched_fixed hcoherent hstage
      have hadds : step.adds (fixed rows stage attributes) = [] := by cases step <;> rfl
      have houtside : step.addsOutside (fixed rows stage attributes) = [] := by cases step <;> rfl
      rw [hadds, houtside, List.append_nil, List.append_nil]
      exact ⟨huntouched.toSameRows, rfl, rfl, iff_of_true huntouched rfl, fun hne => absurd rfl hne⟩
  | varying rows stage offsetsStage attributes =>
      obtain ⟨rfl, hfull⟩ := attempt_failed_varying rfl h
      generalize hadds : step.adds (varying rows stage offsetsStage attributes) = more at hfull
      generalize houtside : step.addsOutside (varying rows stage offsetsStage attributes) =
        outside at hfull
      -- one of any length has added the octets when it finds that no offset can count them
      have hdata : (rows.data ++ more).toList = rows.data.toList ++ more := Rope.toList_append _ _
      refine ⟨sameRows_extend hcoherent more outside, hdata, ?_, ?_, ?_⟩
      · exact Array.toList_appendList
      · constructor
        · intro huntouched
          have hsame := huntouched.rawData
          rw [rawData, rawData, VariableColumn.extend, hdata] at hsame
          exact List.append_right_eq_self.mp hsame
        · rintro rfl
          have hnone : outside = [] := houtside.symm.trans (Step.addsOutside_of_adds hadds)
          rw [hnone, rows.extend_nil]
          exact untouched_varying hcoherent
      · intro hne
        refine ⟨?_, nulls_afterSteps (hfull hne)⟩
        have hsize := hfull hne
        rw [VariableColumn.Full, Rope.size_eq] at hsize
        exact hsize

omit [BlockLibrary] in
/-- One octet more than an offset can count, appended to a new column: the value is refused, yet its
octets stay, and the null row that the new column would have taken is refused from then on. -/
theorem attempt_failed_past_offsets :
    ∃ c c', @Reached .verbatim c ∧
      (Step.append (List.replicate (2 ^ 32) 0)).attempt c = (.error .offsetsOverflow, c') ∧
      c.rawData = [] ∧ c'.rawData = List.replicate (2 ^ 32) 0 ∧ ¬ @Untouched .verbatim c' c ∧
      (Step.appendNull.attempt c).1 = .ok () ∧ (Step.appendNull.attempt c').1 ≠ .ok () := by
  let _ : BlockLibrary := .verbatim
  have hlength : (List.replicate (2 ^ 32) (0 : UInt8)).length = 2 ^ 32 := List.length_replicate
  generalize List.replicate (2 ^ 32) (0 : UInt8) = value at hlength
  let rows : VariableColumn :=
    { kind := .bytes, align := Kind.bytes.defaultAlign, format := .dense }
  have hnew : new (.ofKind "note" .bytes) .dense { kind := .plain } { kind := .plain } [] =
    .ok (varying rows .plain .plain []) := rfl
  have hfull : (rows.extend value []).Full := by
    rw [VariableColumn.Full, VariableColumn.size_extend, hlength]
    exact Nat.le_add_left _ _
  have hrefused : (Step.append value).attempt (varying rows .plain .plain []) =
      (.error .offsetsOverflow, varying (rows.extend value []) .plain .plain []) := by
    rw [Step.attempt_varying, Step.grow, VariableColumn.append_eq, hfull.endRow]
    rfl
  obtain ⟨-, hdata, -, huntouched, -⟩ := attempt_failed (.new hnew) hrefused
  refine ⟨_, _, .new hnew, hrefused, rfl, hdata, fun h => ?_, rfl, ?_⟩
  · have hnil : value = [] := huntouched.mp h
    rw [hnil] at hlength
    cases hlength
  · rw [Step.attempt_varying, Step.grow, VariableColumn.appendNull, hfull.endRow]
    exact fun h => nomatch h

end Column

end ColumnFile
