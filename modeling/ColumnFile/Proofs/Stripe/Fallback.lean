import ColumnFile.Proofs.Stripe.Learned
import Mathlib.Order.Basic

/-! # Dictionaries on trial

A column of variable length for which a dictionary is chosen tries it with every stripe anew, until
it does not pay. Then it is given up, the stripe is compressed instead, and the columns that follow
are told.

* **`Column.OnTrial`** — such a column: its attributes and the encoding that it records go together.
* **`Column.new_onTrial`** — a new column tries the dictionary unless it is told that it was given
  up; **`Column.encodeData_onTrial`** — encoding may give it up, and never goes back.
* **`ColumnSet.OnTrial`**, **`ColumnSet.serialize_onTrial`** — the same for a column of a stripe,
  and what the footer of the stripe records. -/

namespace ColumnFile

/-! ## (1) Columns -/

namespace Column

/-- The **lesson** of a trial: nothing, or that the dictionary was given up. -/
def lesson (givenUp : Bool) : Attributes :=
  if givenUp then [(fallbackAttribute, fallback.kind.label)] else []

/-- The encoding that a trial leads to. -/
def trialKind (givenUp : Bool) : Encoding := if givenUp then fallback.kind else .dictionary

/-- The codec that stands for it. -/
def trialCodec (givenUp : Bool) : Codec :=
  if givenUp then .block .zstd fallback.level else .dictionary

/-- **What a trial has come to** shows in the codec, in the choice that is recorded, and in the
attributes. -/
structure Trial (givenUp : Bool) (stage : Stage) (attributes : Attributes) : Prop where
  codec : stage.codec = trialCodec givenUp
  kind : stage.choice.kind = trialKind givenUp
  attributes : attributes = lesson givenUp

/-- **A column on trial**: it has variable length, and a dictionary was chosen for it. -/
def OnTrial (givenUp : Bool) : Column → Prop
  | fixed .. => False
  | varying _ stage _ attributes => Trial givenUp stage attributes

variable {c c' : Column} {givenUp : Bool} {stage stage' : Stage} {attributes : Attributes}

/-- A trial goes on while codec and choice stay. -/
theorem Trial.congr (h : Trial givenUp stage attributes) (hcodec : stage'.codec = stage.codec)
    (hchoice : stage'.choice = stage.choice) : Trial givenUp stage' attributes := by
  refine ⟨?_, ?_, h.attributes⟩
  · rw [hcodec]
    exact h.codec
  · rw [hchoice]
    exact h.kind

/-- A column on trial has the dictionary, or what took its place. -/
theorem OnTrial.kind_eq (h : c.OnTrial givenUp) : c.choice.kind = trialKind givenUp := by
  cases c with
  | fixed rows stage attributes => exact h.elim
  | varying rows stage offsetsStage attributes => exact h.kind

/-- A column on trial has the attribute that tells of it. -/
theorem OnTrial.attributes_eq (h : c.OnTrial givenUp) : c.attributes = lesson givenUp := by
  cases c with
  | fixed rows stage attributes => exact h.elim
  | varying rows stage offsetsStage attributes => exact h.attributes

/-- **The stage of a new column**: the dictionary is tried unless the lesson is that it was given
up. -/
theorem trial_resolve {choice : EncodingChoice} (hchoice : choice.kind = .dictionary)
    (givenUp : Bool) :
    Trial givenUp (Stage.resolve (choiceWith (lesson givenUp) choice) .values false)
      (lesson givenUp) := by
  obtain ⟨kind, level⟩ := choice
  subst hchoice
  cases givenUp with
  | false => exact ⟨rfl, rfl, rfl⟩
  | true => exact ⟨rfl, rfl, rfl⟩

/-- **A new column** takes up what those before it have learned. -/
theorem new_onTrial {spec : ColumnSpec} {format : StorageFormat} {choice offsets : EncodingChoice}
    (hvaries : spec.kind.fixedWidth = none) (hchoice : choice.kind = .dictionary)
    (h : new spec format choice offsets (lesson givenUp) = .ok c) : c.OnTrial givenUp := by
  unfold new at h
  obtain ⟨-, -, h⟩ := bind_eq_ok h
  rw [hvaries, hchoice, if_neg (by decide)] at h
  obtain ⟨rows, -, h⟩ := bind_eq_ok h
  rw [if_neg (fun hplain => nomatch hplain.1)] at h
  cases h
  exact trial_resolve hchoice givenUp

/-- **Growth** decides nothing. -/
theorem OnTrial.append (h : c.OnTrial givenUp) (v : Bytes) : (c.append v).2.OnTrial givenUp := by
  cases c with
  | fixed rows stage attributes => exact h.elim
  | varying rows stage offsetsStage attributes => exact Trial.congr h rfl rfl

/-- A null leaves a column on trial. -/
theorem OnTrial.appendNull (h : c.OnTrial givenUp) : c.appendNull.2.OnTrial givenUp := by
  cases c with
  | fixed rows stage attributes => exact h.elim
  | varying rows stage offsetsStage attributes => exact Trial.congr h rfl rfl

/-- A value out of line leaves a column on trial. -/
theorem OnTrial.appendToast (h : c.OnTrial givenUp) (v : Bytes) :
    (c.appendToast v).2.OnTrial givenUp := by
  cases c with
  | fixed rows stage attributes => exact h.elim
  | varying rows stage offsetsStage attributes => exact Trial.congr h rfl rfl

/-- A column whose codec is the dictionary has not given it up. -/
theorem Trial.eq_false (h : Trial givenUp stage attributes) (hcodec : stage.codec = .dictionary) :
    givenUp = false := by
  cases givenUp with
  | false => rfl
  | true => cases hcodec.symm.trans h.codec

/-- **A trial is settled** before the values are encoded: the dictionary pays, or it is given up. -/
theorem Trial.settle (h : Trial givenUp stage attributes) (rows : VariableColumn) :
    ∃ givenUp', givenUp ≤ givenUp' ∧
      Trial givenUp' (Column.settle rows stage attributes).1
        (Column.settle rows stage attributes).2 := by
  unfold Column.settle
  split
  · rename_i hgives
    refine ⟨true, Bool.le_true _, rfl, rfl, ?_⟩
    rw [h.attributes, h.eq_false hgives.1]
    rfl
  · exact ⟨givenUp, le_rfl, h⟩

variable [BlockLibrary]

/-- **Encoding** may give the dictionary up, and never goes back to it. -/
theorem encodeData_onTrial (h : c.OnTrial givenUp) :
    ∃ givenUp', givenUp ≤ givenUp' ∧ c.encodeData.2.OnTrial givenUp' := by
  cases c with
  | fixed rows stage attributes => exact h.elim
  | varying rows stage offsetsStage attributes =>
      obtain ⟨givenUp', hle, hsettled⟩ := Trial.settle h rows
      obtain ⟨hcodec, hchoice⟩ := (settle rows stage attributes).1.encode_same rows.data.toList
        fun _ => encodeValues rows (settle rows stage attributes).1.codec
      exact ⟨givenUp', hle, hsettled.congr hcodec hchoice⟩

/-- Offsets that are encoded leave a column on trial. -/
theorem encodeOffsets_onTrial (h : c.OnTrial givenUp) : c.encodeOffsets.2.OnTrial givenUp := by
  cases c with
  | fixed rows stage attributes => exact h.elim
  | varying rows stage offsetsStage attributes => exact h

/-- **A column that was serialized** has settled its trial. -/
theorem serialize_onTrial {i : Nat} {image image' : StripeImage} (hc : c.OnTrial givenUp)
    (h : c.serialize i image = (.ok image', c')) : ∃ givenUp', givenUp ≤ givenUp' ∧
    c'.OnTrial givenUp' := by
  obtain ⟨data, offsets, c₁, hdata, hoffsets⟩ := serialize_eq_ok h
  obtain ⟨givenUp', hle, hc₁⟩ := encodeData_onTrial hc
  rw [hdata] at hc₁
  have hc' := encodeOffsets_onTrial hc₁
  rw [hoffsets] at hc'
  exact ⟨givenUp', hle, hc'⟩

end Column

/-! ## (2) Column sets -/

namespace ColumnSet

variable {s s' : ColumnSet} {columns columns' : List Column} {i k : Nat} {givenUp : Bool}
  {c : Column}

/-- **The column at a place is on trial.** -/
def OnTrial (s : ColumnSet) (k : Nat) (givenUp : Bool) : Prop := ∃ c, s.columns[k]? = some c ∧
    c.OnTrial givenUp

/-- Columns of which one is on trial have the attribute that tells of it. -/
theorem OnTrial.attributes_eq (h : s.OnTrial k givenUp) :
    s.attributes[k]? = some (Column.lesson givenUp) := by
  obtain ⟨c, hc, htrial⟩ := h
  rw [attributes, List.getElem?_map, hc, Option.map_some, htrial.attributes_eq]

/-- **New columns** take up what those before them have learned. -/
theorem newFrom_onTrial {format : StorageFormat} {choices : Nat → EncodingChoice}
    {offsets : EncodingChoice} {schema : List ColumnSpec} {attributes : List Attributes}
    {spec : ColumnSpec} (hspec : schema[k]? = some spec) (hvaries : spec.kind.fixedWidth = none)
    (hchoice : (choices (i + k)).kind = .dictionary)
    (hlesson : attributes[k]?.getD [] = Column.lesson givenUp)
    (h : newFrom format choices offsets i schema attributes = .ok columns) :
    ∃ c, columns[k]? = some c ∧ c.OnTrial givenUp := by
  -- the choices are counted from the first column on
  induction k generalizing i schema attributes columns with
  | zero =>
      obtain ⟨schema, rfl⟩ : ∃ rest, schema = spec :: rest := by
        cases schema with
        | nil => cases hspec
        | cons first rest =>
            cases hspec
            exact ⟨rest, rfl⟩
      rw [newFrom, List.headD_eq_head?_getD, List.head?_eq_getElem?, hlesson] at h
      obtain ⟨c, hc, h⟩ := bind_eq_ok h
      obtain ⟨rest, -, h⟩ := bind_eq_ok h
      cases h
      exact ⟨c, rfl, Column.new_onTrial hvaries hchoice hc⟩
  | succ k ih =>
      cases schema with
      | nil => cases hspec
      | cons first schema =>
          rw [newFrom] at h
          obtain ⟨c, -, h⟩ := bind_eq_ok h
          obtain ⟨rest, hrest, h⟩ := bind_eq_ok h
          cases h
          refine ih hspec ?_ ?_ hrest
          · rw [Nat.add_right_comm, Nat.add_assoc]
            exact hchoice
          · rw [List.getElem?_tail]
            exact hlesson

/-- **A step of one column** that decides nothing. -/
theorem OnTrial.modify (h : s.OnTrial k givenUp) {step : Column → Attempt Column}
    (hstep : ∀ {c : Column}, c.OnTrial givenUp → (step c).2.OnTrial givenUp) (i : Nat) :
    (s.modify i step).2.OnTrial k givenUp := by
  obtain ⟨c, hc, htrial⟩ := h
  unfold ColumnSet.modify
  cases hcolumn : s.columns[i]? with
  | none => exact ⟨c, hc, htrial⟩
  | some d =>
      by_cases hki : k = i
      · subst hki
        cases hc.symm.trans hcolumn
        refine ⟨(step c).2, ?_, hstep htrial⟩
        exact List.getElem?_set_self (List.getElem?_eq_some_iff.mp hc).1
      · refine ⟨c, ?_, htrial⟩
        exact (List.getElem?_set_ne (Ne.symm hki)).trans hc

variable [BlockLibrary] {image image' : StripeImage}

/-- **Columns that were serialized** have settled their trials. -/
theorem serializeFrom_onTrial (hc : columns[k]? = some c) (htrial : c.OnTrial givenUp)
    (h : serializeFrom i image columns = (.ok image', columns')) :
    ∃ c' givenUp', columns'[k]? = some c' ∧ givenUp ≤ givenUp' ∧ c'.OnTrial givenUp' := by
  induction columns generalizing i k image columns' with
  | nil => cases hc
  | cons first rest ih =>
      obtain ⟨between, first', rest', hfirst, hothers, rfl⟩ := serializeFrom_cons h
      -- the column is the first one, or one of the others
      cases k with
      | zero =>
          cases hc
          obtain ⟨givenUp', hle, hfirst'⟩ := Column.serialize_onTrial htrial hfirst
          exact ⟨first', givenUp', rfl, hle, hfirst'⟩
      | succ k =>
          obtain ⟨c', givenUp', hc', hsettled⟩ := ih (k := k) hc hothers
          exact ⟨c', givenUp', hc', hsettled⟩

/-- **The columns of a stripe** have settled their trials, and the footer records what they came
to. -/
theorem serialize_onTrial (hs : s.OnTrial k givenUp) (h : s.serialize = (.ok image, s')) :
    ∃ givenUp' encoding, givenUp ≤ givenUp' ∧ s'.OnTrial k givenUp' ∧
      image.footer.encodings[k]? = some encoding ∧
      encoding.data.kind = Column.trialKind givenUp' := by
  obtain ⟨c, hc, htrial⟩ := hs
  obtain ⟨-, hfrom⟩ := serialize_eq_ok h
  obtain ⟨c', givenUp', hc', hle, htrial'⟩ := serializeFrom_onTrial hc htrial hfrom
  have hencodings : image.footer.encodings = s'.columns.map Column.encoding :=
    serializeFrom_encodings hfrom
  refine ⟨givenUp', c'.encoding, hle, ⟨c', hc', htrial'⟩, ?_, htrial'.kind_eq⟩
  rw [hencodings, List.getElem?_map, hc', Option.map_some]

end ColumnSet

end ColumnFile
