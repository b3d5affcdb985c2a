import ColumnFile.Layout.Describe
import ColumnFile.Proofs.Stripe.Image
import ColumnFile.Proofs.Writer.Close

/-! # Named ranges tile a file

The ranges that are named while a file is described lie one behind the other: the streams of a
stripe and what stands before them, then its footer, one stripe after the other, and then the end of
the file.

* **`ByteRange.Tile`** — ranges that lie one behind the other from a position up to another.
* **`Annotations.Continues`** — what was named from a position up to another.
* **`Annotations.annotateStreams_continues`**, **`Annotations.annotateStripe_continues`**,
  **`Annotations.annotateStripes_continue`** — the parts of a file.
* **`Annotations.ofFile_continues`** — the whole file. -/

namespace ColumnFile

/-! ## (1) Ranges -/

namespace ByteRange

/-- **Ranges tile** what lies from one position up to another: the first begins at the one, each
begins where the one before it ends, and the last ends at the other. -/
def Tile : (start stop : Nat) → List ByteRange → Prop
  | start, stop, [] => start = stop
  | start, stop, r :: rest => r.start = start ∧ r.start ≤ r.stop ∧ Tile r.stop stop rest

variable {start middle stop : Nat} {ranges more : List ByteRange}

/-- **More ranges** tile what lies behind. -/
theorem Tile.append (h : Tile start middle ranges) (hmore : Tile middle stop more) :
    Tile start stop (ranges ++ more) := by
  induction ranges generalizing start with
  | nil =>
      rw [show start = middle from h]
      exact hmore
  | cons r rest ih =>
      obtain ⟨hstart, hle, hrest⟩ := h
      exact ⟨hstart, hle, ih hrest⟩

/-- Tiles end no earlier than they begin. -/
theorem Tile.le (h : Tile start stop ranges) : start ≤ stop := by
  induction ranges generalizing start with
  | nil => exact Nat.le_of_eq h
  | cons r rest ih =>
      obtain ⟨hstart, hle, hrest⟩ := h
      rw [← hstart]
      exact Nat.le_trans hle (ih hrest)

/-- A single range is a tile. -/
theorem tile_singleton (h : start ≤ stop) : Tile start stop [⟨start, stop⟩] := ⟨rfl, h, rfl⟩

/-- **Empty ranges** tile nothing: the others tile the same. -/
theorem Tile.nonempty (h : Tile start stop ranges) :
    Tile start stop (ranges.filter fun r => 0 < r.length) := by
  induction ranges generalizing start with
  | nil => exact h
  | cons r rest ih =>
      obtain ⟨hstart, hle, hrest⟩ := h
      by_cases hlength : 0 < r.length
      · rw [List.filter_cons_of_pos (by simpa using hlength)]
        exact ⟨hstart, hle, ih hrest⟩
      · have hsame : r.stop = start := by
          rw [length] at hlength
          omega
        rw [List.filter_cons_of_neg (by simpa using hlength), ← hsame]
        exact ih hrest

end ByteRange

/-- The octets of a stripe and of its footer. -/
def StripeInformation.range (info : StripeInformation) : ByteRange :=
  ⟨info.offset, info.offset + info.length⟩

/-- **A stripe is laid out** in a file as its footer says: its streams take all of its data. -/
def StripeInformation.LaidOut (info : StripeInformation) (store : Store) (file : FileId) : Prop :=
  ∃ bs footer, store.read file (info.offset + info.dataLength) info.footerLength = .ok bs ∧
    Message.decode StripeFooter bs = .ok footer ∧ footer.extent = info.dataLength

/-! ## (2) Names -/

/-- **A plain text** stays on its line, and has nothing of the word for an error. -/
def Plain (s : String) : Prop := '\n' ∉ s.toList ∧ 'E' ∉ s.toList

/-- It can be decided whether a text is plain. -/
instance (s : String) : Decidable (Plain s) :=
  inferInstanceAs (Decidable ('\n' ∉ s.toList ∧ 'E' ∉ s.toList))

/-- Plain texts behind each other are plain. -/
theorem Plain.append {s t : String} (hs : Plain s) (ht : Plain t) : Plain (s ++ t) := by
  constructor
  · rw [String.toList_append, List.mem_append]
    exact not_or.mpr ⟨hs.1, ht.1⟩
  · rw [String.toList_append, List.mem_append]
    exact not_or.mpr ⟨hs.2, ht.2⟩

/-- **A number** is plain. -/
theorem plain_toString (n : Nat) : Plain (toString n) := by
  have hdigits : ∀ c ∈ (toString n).toList, c.isDigit = true := by
    intro c hc
    rw [Nat.toString_eq_repr, Nat.toList_repr] at hc
    exact Nat.isDigit_of_mem_toDigits (by decide) (by decide) hc
  exact ⟨fun h => absurd (hdigits _ h) (by decide), fun h => absurd (hdigits _ h) (by decide)⟩

/-- The label of a stream is plain. -/
theorem plain_label (kind : StreamKind) : Plain kind.label := by
  cases kind <;> decide

/-- **Parts between separators** are plain when the parts are. -/
theorem plain_intercalate {parts : List String} (h : ∀ part ∈ parts, Plain part) :
    Plain (String.intercalate "." parts) := by
  induction parts with
  | nil => decide
  | cons part rest ih =>
      have hpart := h part List.mem_cons_self
      by_cases hrest : rest = []
      · rw [hrest, String.intercalate_singleton]
        exact hpart
      · rw [String.intercalate_cons_of_ne_nil hrest]
        have hdot : Plain "." := by decide
        exact (hpart.append hdot).append
          (ih fun part' hpart' => h part' (List.mem_cons_of_mem _ hpart'))

namespace Annotations

variable {a a' a'' : Annotations} {start middle stop : Nat}

/-- The context of the next name is plain. -/
def Clear (a : Annotations) : Prop := ∀ part ∈ a.context, Plain part

/-- A part of a name that is plain leaves annotations clear. -/
theorem Clear.push (h : a.Clear) {part : String} (hpart : Plain part) : (a.push part).Clear := by
  intro part' hpart'
  rcases List.mem_append.mp hpart' with hold | hnew
  · exact h part' hold
  · rw [List.mem_singleton.mp hnew]
    exact hpart

/-- A name within clear annotations is plain. -/
theorem Clear.qualify (h : a.Clear) {name : String} (hname : Plain name) : Plain (a.qualify name) :=
  plain_intercalate (h.push hname)

/-! ## (3) Streams and stripes -/

/-- **Annotations continue** from one position up to another: in the same context, ranges with plain
names were added that tile what lies between. -/
structure Continues (a a' : Annotations) (start stop : Nat) : Prop where
  context : a'.context = a.context
  ranges : ∃ more, a'.ranges = a.ranges ++ more ∧ ByteRange.Tile start stop (more.map Prod.fst) ∧
    ∀ range ∈ more, Plain range.2

/-- Annotations continue from themselves. -/
theorem Continues.refl (a : Annotations) (position : Nat) : a.Continues a position position :=
  ⟨rfl, [], (List.append_nil _).symm, rfl, fun _ hrange => nomatch hrange⟩

/-- Annotations that continue are continued. -/
theorem Continues.trans (h : a.Continues a' start middle) (h' : a'.Continues a'' middle stop) :
    a.Continues a'' start stop := by
  obtain ⟨more, hranges, htile, hplain⟩ := h.ranges
  obtain ⟨more', hranges', htile', hplain'⟩ := h'.ranges
  refine ⟨h'.context.trans h.context, more ++ more', ?_, ?_, ?_⟩
  · rw [hranges', hranges, List.append_assoc]
  · rw [List.map_append]
    exact htile.append htile'
  · intro range hrange
    rcases List.mem_append.mp hrange with hrange | hrange
    · exact hplain range hrange
    · exact hplain' range hrange

/-- Annotations that continue stay clear. -/
theorem Continues.clear (h : a.Continues a' start stop) (hclear : a.Clear) : a'.Clear := by
  rw [Clear, h.context]
  exact hclear

/-- **What was named in an inner context** is named when that is left. -/
theorem Continues.pop {part : String} (h : (a.push part).Continues a' start stop) :
    a.Continues a'.pop start stop := by
  refine ⟨?_, h.ranges⟩
  show a'.context.dropLast = a.context
  rw [h.context]
  exact List.dropLast_concat

/-- **One more range** is named. -/
theorem annotate_continues (hclear : a.Clear) (hle : start ≤ stop) {name : String}
    (hname : Plain name) :
    a.Continues (a.annotate start stop name) start stop := by
  refine ⟨rfl, [_], rfl, ByteRange.tile_singleton hle, ?_⟩
  intro range hrange
  rw [List.mem_singleton.mp hrange]
  exact hclear.qualify hname

/-- **One more range** is named behind the others. -/
theorem Continues.annotate (h : a.Continues a' start middle) (hclear : a.Clear)
    (hle : middle ≤ stop) (name : String) (hname : Plain name) :
    a.Continues (a'.annotate middle stop name) start stop :=
  h.trans (annotate_continues (h.clear hclear) hle hname)

/-- **The streams of a stripe** are named with what stands before them. -/
theorem annotateStreams_continues (hclear : a.Clear) (position : Nat) (entries : List StreamEntry) :
    (a.annotateStreams position entries).2 =
      position + (entries.map fun e => e.padding + e.length).sum ∧
      a.Continues (a.annotateStreams position entries).1 position
        (a.annotateStreams position entries).2 := by
  induction entries generalizing a position with
  | nil => exact ⟨rfl, Continues.refl a position⟩
  | cons e rest ih =>
      have hname : Plain s!"column.{e.column}.{e.kind.label}" := by
        have hcolumn : Plain "column." := by decide
        have hdot : Plain "." := by decide
        exact ((hcolumn.append (plain_toString e.column)).append hdot).append (plain_label e.kind)
      -- the padding is named only if there is some
      have hpadding :
        a.Continues (if 0 < e.padding then a.annotate position (position + e.padding) "padding"
          else a) position (position + e.padding) := by
        by_cases hsome : 0 < e.padding
        · rw [if_pos hsome]
          exact annotate_continues hclear (Nat.le_add_right _ _) (by decide)
        · rw [if_neg hsome, Nat.eq_zero_of_not_pos hsome]
          exact Continues.refl a position
      have hentry := hpadding.annotate hclear (Nat.le_add_right _ e.length) _ hname
      obtain ⟨hend, hrest⟩ := ih (hentry.clear hclear) (position + e.padding + e.length)
      refine ⟨?_, hentry.trans hrest⟩
      rw [List.map_cons, List.sum_cons, ← Nat.add_assoc, ← Nat.add_assoc]
      exact hend

variable {store : Store} {file : FileId} {info : StripeInformation}

/-- **The parts of a stripe** are named. -/
theorem annotateStripe_continues (hclear : a.Clear) (h : info.LaidOut store file) (index : Nat) :
    ∃ a', a.annotateStripe store file index info = .ok a' ∧
      a.Continues a' info.offset (info.offset + info.length) := by
  obtain ⟨bs, footer, hread, hdecode, hextent⟩ := h
  have hinner : ((a.push "stripe").push (toString index)).Clear :=
    (hclear.push (by decide)).push (plain_toString index)
  obtain ⟨hend, hstreams⟩ := annotateStreams_continues hinner info.offset footer.streams
  have hstop : info.offset + (footer.streams.map fun e => e.padding + e.length).sum =
      info.offset + info.dataLength := congrArg _ hextent
  rw [hstop] at hend
  rw [hend] at hstreams
  have hfooter := hstreams.annotate hinner (Nat.le_add_right _ info.footerLength) "footer"
    (by decide)
  rw [StripeInformation.length, ← Nat.add_assoc]
  refine ⟨_, ?_, hfooter.pop.pop⟩
  unfold annotateStripe
  dsimp only
  rw [hread, ok_bind, hdecode, ok_bind, if_neg (not_not.mpr hend)]
  rfl

/-- **The stripes of a file** are named one after the other. -/
theorem annotateStripes_continue {infos : List StripeInformation} (hclear : a.Clear)
    (htile : ByteRange.Tile start stop (infos.map StripeInformation.range))
    (hlaid : ∀ info ∈ infos, info.LaidOut store file) (index : Nat) :
    ∃ a', (infos.zipIdx index).foldlM (fun (a : Annotations) (info, index) =>
        a.annotateStripe store file index info) a = .ok a' ∧ a.Continues a' start stop := by
  induction infos generalizing a start index with
  | nil =>
      refine ⟨a, rfl, ?_⟩
      rw [show start = stop from htile]
      exact Continues.refl a stop
  | cons info rest ih =>
      obtain ⟨hstart, -, htile⟩ := htile
      obtain ⟨a₁, hfirst, hcontinues⟩ :=
        annotateStripe_continues hclear (hlaid info List.mem_cons_self) index
      obtain ⟨a₂, hrest, hcontinues'⟩ := ih (hcontinues.clear hclear) htile
        (fun info' hinfo => hlaid info' (List.mem_cons_of_mem _ hinfo)) (index + 1)
      refine ⟨a₂, ?_, ?_⟩
      · rw [List.zipIdx_cons, List.foldlM_cons]
        dsimp only
        rw [hfirst]
        exact hrest
      · rw [← hstart]
        exact hcontinues.trans hcontinues'

/-! ## (4) Files -/

/-- **A file is described** when a reader opens it and its stripes tile what lies before its end:
the ranges that are named tile it. -/
theorem ofFile_continues {path : String} {reader : Reader} {content : Bytes}
    (hstore : store.foreign = false) (hreader : Reader.ofFile store path {} = .ok reader)
    (hopen : store.open? path = .ok file)
    (hcontent : store.get file = content ++ Writer.tail reader.footer)
    (hplace : reader.footer.contentLength = content.length) (hlength : store.length file < 2 ^ 64)
    (htile : ByteRange.Tile 0 content.length (reader.footer.stripes.map StripeInformation.range))
    (hlaid : ∀ info ∈ reader.footer.stripes, info.LaidOut store file) :
    ∃ a, ofFile store path = .ok a ∧ ({} : Annotations).Continues a 0 (store.length file) := by
  generalize hf : Message.encode reader.footer = f
  generalize hp : Message.encode (PostScript.new f.length) = p
  obtain ⟨hfile, htrailer, -, -⟩ := Reader.read_tail hstore hcontent hf hp
  have hsize : Trailer.size = 8 := rfl
  have hclear : ({} : Annotations).Clear := fun _ hpart => nomatch hpart
  obtain ⟨a, hfold, hstripes⟩ := annotateStripes_continue hclear htile hlaid 0
  -- the footer, the postscript and the trailer behind the stripes
  have hfooter := hstripes.annotate hclear (Nat.le_add_right _ f.length) "file_footer" (by decide)
  have hpostscript := hfooter.annotate hclear (Nat.le_add_right _ p.length) "postscript" (by decide)
  have htrailer' := hpostscript.annotate hclear (Nat.le_add_right _ Trailer.size) "trailer"
    (by decide)
  rw [← hfile] at htrailer'
  refine ⟨_, ?_, htrailer'⟩
  unfold ofFile
  rw [hreader, ok_bind, hopen, ok_bind]
  dsimp only
  rw [hfold, ok_bind, hfile, Nat.add_sub_cancel, htrailer, ok_bind,
    Trailer.decode_encode (by omega), ok_bind, Nat.add_sub_cancel, hplace]
  rfl

end Annotations

end ColumnFile
