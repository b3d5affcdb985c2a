import ColumnFile.Proofs.Stripe.ColumnSet
import ColumnFile.Proofs.Stripe.Image
import Mathlib.Data.List.Forall2

/-! # Stripes read back

The image of a column set is decoded into columns that read like those of the set: each column puts
its streams behind those of the columns before it, and a reader finds them there.

* **`Column.serialize_eq`**, **`Column.imageWith_locates`** — the streams of one column in an image.
* **`ColumnSet.serializeFrom_spec`** — those of column after column, and what they are decoded into.
* **`ColumnSet.serialize_decode`** — the whole image. -/

namespace ColumnFile

variable {format : StorageFormat} {i : Nat} {image image' : StripeImage}

namespace Column

variable {spec : ColumnSpec} {c c₁ c' : Column} {cells : List Cell} {data : Bytes}
  {offsets : Option Bytes}

/-! ## (1) One column -/

/-- **The image with the streams of a column** that was encoded. -/
def imageWith (c : Column) (i : Nat) (image : StripeImage) (data : Bytes) (offsets : Option Bytes) :
    StripeImage :=
  let image := image.putBitmap .present i (if c.hasNull then c.nulls.bitmap else none)
  let image := image.put .data i data c.align
  let image :=
    match offsets, c.offsetsEncoding with
    | some offsets, some (choice, _) => image.put .offsets i offsets (offsetsAlign choice)
    | _, _ => image
  (image.putBitmap .toast i c.toastRows).putEncoding c.encoding

/-- **The streams of a column are found** in its place. -/
theorem imageWith_locates (data : Bytes) {total : Nat} {found : List ColumnStreams}
    (hlocates : image.Locates total found) (hfree : found[i]? = some {})
    (hoffsets : offsets.isSome = true → c.offsetsEncoding.isSome = true) :
    (c.imageWith i image data offsets).Locates total
      (found.set i (c.streamsWith data offsets)) := by
  unfold imageWith streamsWith
  generalize (if c.hasNull then c.nulls.bitmap else none) = present
  generalize c.toastRows = toast
  dsimp only
  -- the streams of a column are put one after the other, each where nothing was found yet
  have hpresent := StripeImage.putBitmap_locates hlocates hfree .present present
  have hfound := StripeImage.filled hfree
    (present.elim {} fun b => ({} : ColumnStreams).put .present b.toBytes)
  have hdata := StripeImage.put_locates hpresent hfound .data data c.align
  have hfound' := StripeImage.filled hfound
    ((present.elim {} fun b => ({} : ColumnStreams).put .present b.toBytes).put .data data)
  cases offsets with
  | none =>
      have htoast := StripeImage.putBitmap_locates hdata hfound' .toast toast
      rw [List.set_set, List.set_set] at htoast
      refine StripeImage.putEncoding_locates ?_ c.encoding
      convert htoast using 2
      cases present <;> cases toast <;> rfl
  | some bs =>
      obtain ⟨⟨choice, length⟩, hchoice⟩ := Option.isSome_iff_exists.mp (hoffsets rfl)
      have hput := StripeImage.put_locates hdata hfound' .offsets bs (offsetsAlign choice)
      have hfound'' := StripeImage.filled hfound'
        (((present.elim {} fun b => ({} : ColumnStreams).put .present b.toBytes).put .data data).put
          .offsets bs)
      have htoast := StripeImage.putBitmap_locates hput hfound'' .toast toast
      rw [List.set_set, List.set_set, List.set_set] at htoast
      rw [hchoice]
      refine StripeImage.putEncoding_locates ?_ c.encoding
      convert htoast using 2
      cases present <;> cases toast <;> rfl

/-- The encodings of a column are listed behind those of the columns before it. -/
theorem encodings_imageWith (c : Column) (i : Nat) (image : StripeImage) (data : Bytes)
    (offsets : Option Bytes) :
    (c.imageWith i image data offsets).footer.encodings = image.footer.encodings ++
      [c.encoding] := by
  unfold imageWith StripeImage.putEncoding
  dsimp only
  rw [StripeImage.encodings_putBitmap]
  cases offsets with
  | none => rw [StripeImage.encodings_put, StripeImage.encodings_putBitmap]
  | some bs =>
      cases c.offsetsEncoding with
      | none => rw [StripeImage.encodings_put, StripeImage.encodings_putBitmap]
      | some encoding =>
          dsimp only
          rw [StripeImage.encodings_put, StripeImage.encodings_put, StripeImage.encodings_putBitmap]

/-- The streams of a column take all octets that they add to the image. -/
theorem imageWith_laid (c : Column) (i : Nat) (himage : image.Laid) (data : Bytes)
    (offsets : Option Bytes) :
    (c.imageWith i image data offsets).Laid := by
  have hdata := StripeImage.put_laid (StripeImage.putBitmap_laid himage .present i
    (if c.hasNull then c.nulls.bitmap else none)) .data i data c.align
  unfold imageWith
  dsimp only
  refine StripeImage.putBitmap_laid ?_ .toast i c.toastRows
  cases offsets with
  | none => exact hdata
  | some bs =>
      cases c.offsetsEncoding with
      | none => exact hdata
      | some encoding => exact StripeImage.put_laid hdata .offsets i bs _

variable [BlockLibrary]

/-- **Serializing a column** puts its encoded streams. -/
theorem serialize_eq (i : Nat) (image : StripeImage) (hdata : c.encodeData = (.ok data, c₁))
    (hoffsets : c₁.encodeOffsets = (.ok offsets, c')) :
    c.serialize i image = (.ok (c'.imageWith i image data offsets), c') := by
  obtain ⟨hnulls, -, -, halign⟩ := encode_keeps hdata hoffsets
  have hnull : c'.hasNull = c.hasNull := by
    rw [hasNull, nonNull, rows, hnulls, ← rows, ← nonNull, hasNull]
  unfold serialize
  rw [hdata]
  dsimp only
  rw [hoffsets]
  dsimp only
  rw [← hnull, ← hnulls, ← halign]
  rfl

/-- A column that was serialized, was encoded. -/
theorem serialize_eq_ok (h : c.serialize i image = (.ok image', c')) :
    ∃ data offsets c₁, c.encodeData = (.ok data, c₁) ∧ c₁.encodeOffsets = (.ok offsets, c') := by
  unfold serialize at h
  dsimp only at h
  cases hdata : c.encodeData with
  | mk result c₁ =>
      rw [hdata] at h
      cases result with
      | error e => cases h
      | ok data =>
          dsimp only at h
          cases hoffsets : c₁.encodeOffsets with
          | mk result' c₂ =>
              rw [hoffsets] at h
              cases result' with
              | error e => cases h
              | ok offsets =>
                  cases h
                  exact ⟨data, offsets, c₁, rfl, hoffsets⟩

/-- Columns of variable length have offsets, and no others. -/
theorem isSome_offsets (hoffsets : c₁.encodeOffsets = (.ok offsets, c')) :
    offsets.isSome = c'.offsetsEncoding.isSome := by
  cases c₁ with
  | fixed rows stage attributes =>
      cases hoffsets
      rfl
  | varying rows stage offsetsStage attributes =>
      rw [encodeOffsets, Prod.mk.injEq] at hoffsets
      obtain ⟨hok, rfl⟩ := hoffsets
      obtain ⟨bs, -, rfl⟩ := map_eq_ok hok
      rfl

end Column

namespace ColumnSet

variable [BlockLibrary] {cells : Nat → List Cell} {columns columns' : List Column}
  {schema : List ColumnSpec}

/-! ## (2) Column after column -/

/-- Serializing columns that are not none serializes the first one, and then the others. -/
theorem serializeFrom_cons {c : Column}
    (h : serializeFrom i image (c :: columns) = (.ok image', columns')) :
    ∃ between c' rest', c.serialize i image = (.ok between, c') ∧
      serializeFrom (i + 1) between columns = (.ok image', rest') ∧ columns' = c' :: rest' := by
  rw [serializeFrom] at h
  cases hfirst : c.serialize i image with
  | mk result c' =>
      rw [hfirst] at h
      cases result with
      | error e => cases h
      | ok between =>
          dsimp only at h
          rw [Prod.mk.injEq] at h
          obtain ⟨hok, rfl⟩ := h
          exact ⟨between, c', _, rfl, Prod.ext hok rfl, rfl⟩

/-- **The streams of columns** are found in their places, and are decoded into columns that read
like them. -/
theorem serializeFrom_spec (hlibrary : BlockLibrary.Restores) {rows total : Nat}
    {done : List ColumnStreams} (hs : HoldsFrom format cells i columns schema)
    (hrows : ∀ c ∈ columns, c.rows = rows) (hcount : rows + 1 < 2 ^ 64)
    (h : serializeFrom i image columns = (.ok image', columns')) (hdone : done.length = i)
    (hlocates : image.Locates total (done ++ List.replicate columns.length ({} : ColumnStreams))) :
    ∃ streams encodings decoded, image'.Locates total (done ++ streams) ∧
      image'.footer.encodings = image.footer.encodings ++ encodings ∧
      encodings.length = schema.length ∧
      decodeAll format rows schema encodings streams = .ok decoded ∧
      List.Forall₂ Column.Mirrors decoded columns := by
  -- column after column; those behind have no streams yet
  induction hs generalizing image columns' done with
  | nil =>
      cases h
      refine ⟨[], [], [], hlocates, (List.append_nil _).symm, rfl, rfl, .nil⟩
  | @cons i c spec columns schema hc hrest ih =>
      obtain ⟨between, c', rest', hfirst, hothers, rfl⟩ := serializeFrom_cons h
      obtain ⟨data, offsets, c₁, hdata, hoffsets⟩ := Column.serialize_eq_ok hfirst
      rw [Column.serialize_eq _ _ hdata hoffsets, Prod.mk.injEq, Except.ok.injEq] at hfirst
      obtain ⟨rfl, -⟩ := hfirst
      have hcRows : c.rows = rows := hrows c List.mem_cons_self
      rw [List.length_cons] at hlocates
      -- the first column is decoded, and its streams are found where they were put
      obtain ⟨d, hd, hmirrors⟩ :=
        Column.decode_spec hlibrary hc (by rw [hcRows]; exact hcount) hdata hoffsets
      rw [hcRows] at hd
      have hfree : (done ++ List.replicate (columns.length + 1) ({} : ColumnStreams))[i]? =
        some {} := by
        rw [List.getElem?_append_right (Nat.le_of_eq hdone), hdone, Nat.sub_self]
        rfl
      have hnext := Column.imageWith_locates data hlocates hfree
        fun hsome => (Column.isSome_offsets hoffsets).symm.trans hsome
      have hsplit : (done ++ List.replicate (columns.length + 1) ({} : ColumnStreams)).set i
          (c'.streamsWith data offsets) =
            (done ++ [c'.streamsWith data offsets]) ++
              List.replicate columns.length ({} : ColumnStreams) := by
        rw [List.set_append_right _ _ (Nat.le_of_eq hdone), hdone, Nat.sub_self,
          List.replicate_succ, List.set_cons_zero, List.append_assoc, List.singleton_append]
      rw [hsplit] at hnext
      obtain ⟨streams, encodings, decoded, hlocated, hlisted, hlength, hdecoded, hmirror⟩ :=
        ih (fun c hmem => hrows c (List.mem_cons_of_mem _ hmem)) hothers
          (by rw [List.length_append, hdone, List.length_singleton]) hnext
      have hsame : c'.streamsWith data offsets = c.streamsWith data offsets := by
        obtain ⟨hnulls, htoast, -, -⟩ := Column.encode_keeps hdata hoffsets
        rw [Column.streamsWith, Column.streamsWith, Column.hasNull, Column.nonNull,
          Column.rows, hnulls, htoast]
        rfl
      refine ⟨c'.streamsWith data offsets :: streams, c'.encoding :: encodings, d :: decoded,
        ?_, ?_, ?_, ?_, .cons hmirrors hmirror⟩
      · rw [List.append_assoc, List.singleton_append] at hlocated
        exact hlocated
      · rw [hlisted, Column.encodings_imageWith, List.append_assoc, List.singleton_append]
      · rw [List.length_cons, List.length_cons, hlength]
      · rw [decodeAll, hsame, hd, ok_bind, hdecoded]
        rfl

/-- **The streams of columns** take all octets of their image. -/
theorem serializeFrom_laid (himage : image.Laid)
    (h : serializeFrom i image columns = (.ok image', columns')) : image'.Laid := by
  induction columns generalizing i image columns' with
  | nil =>
      cases h
      exact himage
  | cons c columns ih =>
      obtain ⟨between, c', rest', hfirst, hothers, rfl⟩ := serializeFrom_cons h
      obtain ⟨data, offsets, c₁, hdata, hoffsets⟩ := Column.serialize_eq_ok hfirst
      rw [Column.serialize_eq _ _ hdata hoffsets, Prod.mk.injEq, Except.ok.injEq] at hfirst
      obtain ⟨rfl, -⟩ := hfirst
      exact ih (Column.imageWith_laid c' i himage data offsets) hothers

/-- **The encodings of columns** are listed in the order of the columns. -/
theorem serializeFrom_encodings (h : serializeFrom i image columns = (.ok image', columns')) :
    image'.footer.encodings = image.footer.encodings ++ columns'.map Column.encoding := by
  induction columns generalizing i image columns' with
  | nil =>
      cases h
      exact (List.append_nil _).symm
  | cons c columns ih =>
      obtain ⟨between, c', rest', hfirst, hothers, rfl⟩ := serializeFrom_cons h
      obtain ⟨data, offsets, c₁, hdata, hoffsets⟩ := Column.serialize_eq_ok hfirst
      rw [Column.serialize_eq _ _ hdata hoffsets, Prod.mk.injEq, Except.ok.injEq] at hfirst
      obtain ⟨rfl, -⟩ := hfirst
      rw [ih hothers, Column.encodings_imageWith, List.map_cons, List.append_assoc,
        List.singleton_append]

/-- **Columns are serialized** when no compressor fails. -/
theorem serializeFrom_total (hlibrary : BlockLibrary.Total) (image : StripeImage)
    (hs : HoldsFrom format cells i columns schema) :
    ∃ image' columns', serializeFrom i image columns = (.ok image', columns') := by
  induction hs generalizing image with
  | nil => exact ⟨image, [], rfl⟩
  | @cons i c spec columns schema hc hrest ih =>
      obtain ⟨data, hdata⟩ := Column.encodeData_total hlibrary hc
      obtain ⟨offsets, hoffsets⟩ := Column.encodeOffsets_total hlibrary (Column.encodeData_holds hc)
      have hfirst := Column.serialize_eq i image (Prod.ext hdata rfl) (Prod.ext hoffsets rfl)
      rw [serializeFrom, hfirst]
      dsimp only
      obtain ⟨image', rest', hothers⟩ :=
        ih (c.encodeData.2.encodeOffsets.2.imageWith i image data offsets)
      rw [hothers]
      exact ⟨image', _, rfl⟩

/-- Columns hold their cells after they were serialized. -/
theorem serializeFrom_holds (hs : HoldsFrom format cells i columns schema)
    (h : serializeFrom i image columns = (.ok image', columns')) :
    HoldsFrom format cells i columns' schema := by
  induction hs generalizing image columns' with
  | nil =>
      cases h
      exact .nil
  | @cons i c spec columns schema hc hrest ih =>
      obtain ⟨between, c', rest', hfirst, hothers, rfl⟩ := serializeFrom_cons h
      obtain ⟨data, offsets, c₁, hdata, hoffsets⟩ := Column.serialize_eq_ok hfirst
      rw [Column.serialize_eq _ _ hdata hoffsets] at hfirst
      have hc₁ := Column.encodeData_holds hc
      rw [hdata] at hc₁
      have hc' := Column.encodeOffsets_holds hc₁
      rw [hoffsets] at hc'
      exact .cons hc' (ih hothers)

/-- **Serializing columns again** gives the same image and changes nothing more. -/
theorem serializeFrom_again (hs : HoldsFrom format cells i columns schema)
    (h : serializeFrom i image columns = (.ok image', columns')) :
    serializeFrom i image columns' = (.ok image', columns') := by
  induction hs generalizing image columns' with
  | nil =>
      cases h
      rfl
  | @cons i c spec columns schema hc hrest ih =>
      obtain ⟨between, c', rest', hfirst, hothers, rfl⟩ := serializeFrom_cons h
      obtain ⟨data, offsets, c₁, hdata, hoffsets⟩ := Column.serialize_eq_ok hfirst
      rw [Column.serialize_eq _ _ hdata hoffsets, Prod.mk.injEq, Except.ok.injEq] at hfirst
      obtain ⟨rfl, -⟩ := hfirst
      obtain ⟨hdata', hoffsets'⟩ := Column.encode_twice hc hdata hoffsets
      rw [serializeFrom, Column.serialize_eq _ _ hdata' hoffsets']
      dsimp only
      rw [ih hothers]

/-! ## (3) Column sets -/

/-- The columns of a set that is serialized have as many rows as the set. -/
theorem serialize_eq {s : ColumnSet} (hrows : ∀ c ∈ s.columns, c.rows = s.rows) :
    s.serialize =
      ((serializeFrom 0 {} s.columns).1, { columns := (serializeFrom 0 {} s.columns).2 }) := by
  have hnone : (s.columns.find? fun c => c.rows ≠ s.rows) = none := by
    rw [List.find?_eq_none]
    intro c hmem
    rw [decide_eq_true_eq, Classical.not_not]
    exact hrows c hmem
  rw [serialize, hnone]

/-- A set that was serialized has columns of as many rows, and it was serialized column after
column. -/
theorem serialize_eq_ok {s s' : ColumnSet} {image : StripeImage}
    (h : s.serialize = (.ok image, s')) :
    (∀ c ∈ s.columns, c.rows = s.rows) ∧
    serializeFrom 0 {} s.columns = (.ok image, s'.columns) := by
  have hrows : ∀ c ∈ s.columns, c.rows = s.rows := by
    unfold serialize at h
    cases hfind : s.columns.find? fun c => c.rows ≠ s.rows with
    | some c =>
        rw [hfind] at h
        cases h
    | none =>
        intro c hmem
        have hsame := List.find?_eq_none.mp hfind c hmem
        rw [decide_eq_true_eq, Classical.not_not] at hsame
        exact hsame
  refine ⟨hrows, ?_⟩
  rw [serialize_eq hrows, Prod.mk.injEq] at h
  obtain ⟨hok, rfl⟩ := h
  exact Prod.ext hok rfl

/-- A set that was serialized has as many rows as before. -/
theorem rows_serialize {s s' : ColumnSet} {image : StripeImage}
    (h : s.serialize = (.ok image, s')) :
    s'.rows = s.rows := by
  obtain ⟨columns⟩ := s
  obtain ⟨columns'⟩ := s'
  obtain ⟨-, hfrom⟩ := serialize_eq_ok h
  cases columns with
  | nil =>
      cases hfrom
      rfl
  | cons c columns =>
      -- the rows of a set are those of its first column
      obtain ⟨between, c', rest, hfirst, -, rfl⟩ := serializeFrom_cons hfrom
      obtain ⟨data, offsets, c₁, hdata, hoffsets⟩ := Column.serialize_eq_ok hfirst
      obtain ⟨hnulls, -⟩ := Column.encode_keeps hdata hoffsets
      show c'.rows = c.rows
      rw [Column.rows, hnulls, Column.rows]

/-- **The image of a set is decoded** into columns that read like those of the set. -/
theorem serialize_decode (hlibrary : BlockLibrary.Restores) {s s' : ColumnSet} {image : StripeImage}
    (hs : HoldsFrom format cells 0 s.columns schema) (hcount : s.rows + 1 < 2 ^ 64)
    (h : s.serialize = (.ok image, s')) :
    ∃ decoded, decode schema format image.footer s.rows image.data = .ok decoded ∧
      List.Forall₂ Column.Mirrors decoded.columns s.columns := by
  obtain ⟨hrows, hfrom⟩ := serialize_eq_ok h
  have hlocates : ({} : StripeImage).Locates schema.length
      ([] ++ List.replicate s.columns.length ({} : ColumnStreams)) := by
    rw [List.nil_append, hs.length_eq]
    exact StripeImage.locates_empty schema.length
  obtain ⟨streams, encodings, decoded, hlocated, hlisted, hlength, hdecoded, hmirrors⟩ :=
    serializeFrom_spec hlibrary hs hrows hcount hfrom rfl hlocates
  have hencodings : image.footer.encodings = encodings := hlisted
  refine ⟨{ columns := decoded }, ?_, hmirrors⟩
  rw [decode, hencodings, if_neg (by exact fun hne => hne hlength)]
  show (image.footer.locate schema.length image.data >>= _) = _
  rw [hlocated.locate, ok_bind, List.nil_append, hdecoded]
  rfl

/-- **A stripe reads back.** Whatever columns steps of growth lead to, as long as they have one
count of rows, they are serialized; the image is decoded into columns that read like them, row by
row and range by range; and serializing them again gives the same image. The rows can be counted in
a machine word, and the library of block compressors never fails and restores what it made. -/
theorem serialize_roundtrip (htotal : BlockLibrary.Total) (hrestores : BlockLibrary.Restores)
    {s : ColumnSet} (hs : Built schema format s) (hrows : ∀ c ∈ s.columns, c.rows = s.rows)
    (hcount : s.rows + 1 < 2 ^ 64) :
    ∃ image s', s.serialize = (.ok image, s') ∧
      (∃ decoded, decode schema format image.footer s.rows image.data = .ok decoded ∧
        List.Forall₂ Column.Mirrors decoded.columns s.columns) ∧
      s'.serialize = (.ok image, s') := by
  obtain ⟨cells, hcells⟩ := hs.holds
  obtain ⟨image, columns', hfrom⟩ := serializeFrom_total htotal {} hcells
  have hserialize : s.serialize = (.ok image, { columns := columns' }) := by
    rw [serialize_eq hrows, hfrom]
  refine ⟨image, { columns := columns' }, hserialize,
    serialize_decode hrestores hcells hcount hserialize, ?_⟩
  -- the kept forms are of the same rows
  have hcells' := serializeFrom_holds hcells hfrom
  have hsame := hcells.map_eq (f := Column.rows) hcells' fun hc hc' => by
    rw [hc.rows_eq, hc'.rows_eq]
  have hrows' : ∀ c ∈ columns', c.rows = ({ columns := columns' } : ColumnSet).rows := by
    intro c' hmem
    have hmem' : c'.rows ∈ s.columns.map Column.rows := by
      rw [← hsame]
      exact List.mem_map_of_mem hmem
    obtain ⟨c, hc, hrowsEq⟩ := List.mem_map.mp hmem'
    rw [rows_eq hcells hcells', ← hrowsEq]
    exact hrows c hc
  rw [serialize_eq hrows', serializeFrom_again hcells hfrom]

omit [BlockLibrary] in
/-- Two rows of an integer and a text: the first text is stored out of line, the second row is
null. -/
theorem serialize_roundtrip_two_rows :
    ∃ s, Built [.ofKind "id" .int, .ofKind "note" .string] .padded s ∧ s.rows = 2 ∧
      ∃ image s', @serialize .verbatim s = (.ok image, s') ∧
        (∃ decoded, @decode .verbatim [.ofKind "id" .int, .ofKind "note" .string] .padded
          image.footer 2
          image.data = .ok decoded ∧ List.Forall₂ Column.Mirrors decoded.columns s.columns) ∧
        @serialize .verbatim s' = (.ok image, s') := by
  have hnew : Built [.ofKind "id" .int, .ofKind "note" .string] .padded _ :=
    .new (fun _ => { kind := .runLength }) {} [] rfl
  have hbuilt := (((hnew.grow 0 (.append [1, 2, 3, 4]) rfl).grow 1 (.appendToast [5, 6]) rfl).grow 0
    .appendNull rfl).grow 1 (.setRows 2) rfl
  exact ⟨_, hbuilt, rfl, @serialize_roundtrip _ .verbatim _ BlockLibrary.verbatim_total
    BlockLibrary.verbatim_restores _ hbuilt (by decide) (by decide)⟩

end ColumnSet

end ColumnFile
