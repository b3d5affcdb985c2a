import ColumnFile.Proofs.Codec
import ColumnFile.Stripe.Serialize

/-! # Which faults stripes have

Columns of one length are put into a stripe unless a compressor fails or a codec does not fit; only
columns of different lengths disagree with the schema. Columns that grow run out of room or are
given a value of the wrong width, which does not disagree with the schema either.

* **`Column.serialize_error`**, **`ColumnSet.serialize_error`** — columns that were not put into a
  stripe.
* **`Column.append_error`**, `Column.appendNull_error`, `Column.appendToast_error` — rows that were
  not appended. -/

namespace ColumnFile

variable {e : Fault}

/-! ## (1) Streams -/

/-- **A stream that was not encoded** could not be made by its codec. -/
theorem Stage.encode_error {s : Stage} {raw : Bytes} {make : Unit → Except Fault Bytes}
    (h : (s.encode raw make).1 = .error e) : make () = .error e := by
  unfold encode at h
  split at h
  · cases h
  · split at h
    · cases h
    · split at h
      · rename_i e' hmake
        cases h
        exact hmake
      · cases h

section

variable [BlockLibrary]

/-- A compressor that fails says so. -/
theorem Codec.compressBlock_error (hlibrary : BlockLibrary.Classed) {kind : BlockKind}
    {level : Int32} {raw : Bytes} (h : compressBlock kind level raw = .error e) :
    e.cls ≠ .schema := by
  unfold compressBlock at h
  split at h
  · cases h
  · rw [hlibrary kind raw level e h]
    decide

/-- **Integers that were not encoded** could not be compressed, or have no dictionary. -/
theorem Codec.encodeInts_error (hlibrary : BlockLibrary.Classed) {codec : Codec}
    {values : List Int64} {raw : Bytes} (h : codec.encodeInts values raw = .error e) :
    e.cls ≠ .schema := by
  cases codec with
  | plain => cases h
  | runLength signed => cases h
  | delta => cases h
  | block kind level => exact compressBlock_error hlibrary h
  | dictionary =>
      cases h
      decide

namespace Column

variable {c : Column}

/-- Values that were not encoded could not be compressed. -/
theorem encodeValues_error (hlibrary : BlockLibrary.Classed) {rows : VariableColumn} {codec : Codec}
    (h : encodeValues rows codec = .error e) : e.cls ≠ .schema := by
  cases codec with
  | block kind level => exact Codec.compressBlock_error hlibrary h
  | plain => cases h
  | runLength signed => cases h
  | delta => cases h
  | dictionary => cases h

/-- **Data that were not encoded.** -/
theorem encodeData_error (hlibrary : BlockLibrary.Classed) (h : c.encodeData.1 = .error e) :
    e.cls ≠ .schema := by
  cases c with
  | fixed rows stage attributes =>
      have hencode : (stage.encode rows.data.toList fun _ =>
          stage.codec.encodeInts rows.ints rows.data.toList).1 = .error e := h
      exact Codec.encodeInts_error hlibrary (Stage.encode_error hencode)
  | varying rows stage offsetsStage attributes =>
      have hencode : ((settle rows stage attributes).1.encode rows.data.toList fun _ =>
          encodeValues rows (settle rows stage attributes).1.codec).1 = .error e := h
      exact encodeValues_error hlibrary (Stage.encode_error hencode)

/-- **Offsets that were not encoded.** -/
theorem encodeOffsets_error (hlibrary : BlockLibrary.Classed) (h : c.encodeOffsets.1 = .error e) :
    e.cls ≠ .schema := by
  cases c with
  | fixed rows stage attributes => cases h
  | varying rows stage offsetsStage attributes =>
      unfold encodeOffsets at h
      dsimp only at h
      generalize hencode : offsetsStage.encode _ _ = result at h
      obtain ⟨outcome, stage'⟩ := result
      cases outcome with
      | ok bs => cases h
      | error e' =>
          cases h
          exact Codec.encodeInts_error hlibrary (Stage.encode_error (congrArg Prod.fst hencode))

/-- **A column that was not put** into a stripe. -/
theorem serialize_error (hlibrary : BlockLibrary.Classed) {i : Nat} {image : StripeImage}
    (h : (c.serialize i image).1 = .error e) : e.cls ≠ .schema := by
  unfold serialize at h
  dsimp only at h
  split at h
  · rename_i e' c' hdata
    cases h
    exact encodeData_error hlibrary (congrArg Prod.fst hdata)
  · split at h
    · rename_i e' c' hoffsets
      cases h
      exact encodeOffsets_error hlibrary (congrArg Prod.fst hoffsets)
    · cases h

end Column

namespace ColumnSet

/-- **A stripe that is not written** is not for its schema. -/
theorem serializeFrom_error (hlibrary : BlockLibrary.Classed) {columns : List Column} {i : Nat}
    {image : StripeImage} (h : (serializeFrom i image columns).1 = .error e) : e.cls ≠ .schema := by
  induction columns generalizing i image with
  | nil => cases h
  | cons c columns ih =>
      rw [serializeFrom] at h
      split at h
      · rename_i e' c' hserialize
        cases h
        exact Column.serialize_error hlibrary (congrArg Prod.fst hserialize)
      · exact ih h

/-- **Columns that were not put** into a stripe: that disagrees with the schema only if one of them
has more or fewer rows than the first. -/
theorem serialize_error (hlibrary : BlockLibrary.Classed) {s : ColumnSet}
    (h : s.serialize.1 = .error e) (hschema : e.cls = .schema) :
    ∃ c ∈ s.columns, c.rows ≠ s.rows ∧ e = .stripeRows c.rows s.rows := by
  unfold serialize at h
  split at h
  · rename_i c hfind
    cases h
    have hrows : decide (c.rows ≠ s.rows) = true :=
      List.find?_some (p := fun c : Column => decide (c.rows ≠ s.rows)) hfind
    exact ⟨c, List.mem_of_find?_eq_some hfind, of_decide_eq_true hrows, rfl⟩
  · exact absurd hschema (serializeFrom_error hlibrary h)

end ColumnSet

end

/-! ## (2) Growth -/

/-- A column of variable length runs out of offsets. -/
theorem VariableColumn.endRow_error {c : VariableColumn} {notNull toasted : Bool}
    (h : (c.endRow notNull toasted).1 = .error e) : e.cls ≠ .schema := by
  unfold endRow at h
  split at h
  · cases h
    decide
  · cases h

namespace Column

variable {c : Column} {bs : Bytes}

/-- **A value that was not appended** has the wrong width, or there is no room for it. -/
theorem append_error (h : (c.append bs).1 = .error e) : e.cls ≠ .schema := by
  cases c with
  | fixed rows stage attributes =>
      have happend : (rows.append bs).1 = .error e := h
      unfold FixedColumn.append at happend
      split at happend
      · cases happend
        exact fun hcls => nomatch hcls
      · cases happend
  | varying rows stage offsetsStage attributes =>
      unfold append changeVarying VariableColumn.append at h
      dsimp only at h
      exact VariableColumn.endRow_error h

/-- A null row for which there is no room. -/
theorem appendNull_error (h : c.appendNull.1 = .error e) : e.cls ≠ .schema := by
  cases c with
  | fixed rows stage attributes => cases h
  | varying rows stage offsetsStage attributes =>
      unfold appendNull changeVarying VariableColumn.appendNull at h
      dsimp only at h
      exact VariableColumn.endRow_error h

/-- A value that cannot be stored out of line, or for which there is no room. -/
theorem appendToast_error (h : (c.appendToast bs).1 = .error e) : e.cls ≠ .schema := by
  cases c with
  | fixed rows stage attributes =>
      cases h
      decide
  | varying rows stage offsetsStage attributes =>
      unfold appendToast changeVarying VariableColumn.appendToast at h
      dsimp only at h
      exact VariableColumn.endRow_error h

end Column

end ColumnFile
