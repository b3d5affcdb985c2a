import ColumnFile.Proofs.Writer.Basic
import Mathlib.Algebra.Order.BigOperators.Group.List
import Mathlib.Algebra.Order.Ring.Nat

/-! # Files that were closed can be read

The end of a file is read back, and with it the directory; a reader then finds the rows of the
writer.

* **`Reader.readFooter_tail`** — the footer of a file that ends with it.
* **`Writer.Fits`** — a writer whose numbers a file can carry; **`Writer.Stored.footer_sized`**.
* **`Writer.Leads`** — the paths of a writer lead to its files.
* **`Filed`** — a file with the batches of a ledger; `Filed.serves`, `Filed.opens` and
  `Filed.rejects` are what a reader does with it.
* **`Writer.close_ends`** — the file of a writer that was closed ends with its footer, which lists
  its stripes.
* **`Writer.close_filed`** — the file of a writer that was closed has the batches of its ledger.
* **`Writer.close_ahead`** — the file of a writer of which no call failed has its rows.
* **`Writer.close_frame`** — what closing leaves alone. -/

namespace ColumnFile

/-! ## (1) The end of a file -/

/-- **The three parts of the end of a file** are where a reader looks for them. -/
theorem Reader.read_tail {store : Store} {file : FileId} {content f p : Bytes} {footer : FileFooter}
    (hstore : store.foreign = false) (hcontent : store.get file = content ++ Writer.tail footer)
    (hf : Message.encode footer = f) (hp : Message.encode (PostScript.new f.length) = p) :
    store.length file = content.length + f.length + p.length + Trailer.size ∧
      store.read file (content.length + f.length + p.length) Trailer.size =
        .ok (Trailer.encode p.length) ∧
      store.read file (content.length + f.length) p.length = .ok p ∧
      store.read file content.length f.length = .ok f := by
  have htail : Writer.tail footer = f ++ p ++ Trailer.encode p.length := by
    rw [Writer.tail, hf, hp]
  rw [htail] at hcontent
  refine ⟨?_, ?_, ?_, ?_⟩
  · rw [Store.length, hcontent, List.length_append, List.length_append, List.length_append,
      Trailer.length_encode, Nat.add_assoc, Nat.add_assoc, Nat.add_assoc]
  · rw [Store.read_eq_ok hstore, hcontent, ← List.append_assoc, ← List.append_assoc,
      ← Trailer.length_encode p.length, ← List.length_append, ← List.length_append]
    exact Bytes.slice?_append_right _ _
  · rw [Store.read_eq_ok hstore, hcontent, ← List.append_assoc, ← List.append_assoc,
      ← List.length_append]
    exact StripeImage.slice?_append _ _ _
  · rw [Store.read_eq_ok hstore, hcontent, List.append_assoc f, ← List.append_assoc]
    exact StripeImage.slice?_append _ _ _

/-- **The end of a file reads back**: the trailer tells where the postscript is, and the postscript
where the footer is. -/
theorem Reader.readFooter_tail {store : Store} {file : FileId} {content : Bytes}
    {footer : FileFooter} (path : String) (hstore : store.foreign = false)
    (hcontent : store.get file = content ++ Writer.tail footer) (hsized : footer.Sized)
    (hplace : footer.contentLength = content.length)
    (hlength : store.length file < 2 ^ 64) :
    readFooter store file path = .ok footer := by
  generalize hf : Message.encode footer = f
  generalize hp : Message.encode (PostScript.new f.length) = p
  obtain ⟨hfile, htrailer, hpostscript, hfooter⟩ := read_tail hstore hcontent hf hp
  have hsize : Trailer.size = 8 := rfl
  rw [hfile] at hlength
  -- the messages at the end are read back
  have hreadPostscript : Message.decode PostScript p = .ok (PostScript.new f.length) := by
    rw [← hp]
    exact Message.decode_encode (PostScript.fits (by omega)) (by decide)
  have hreadFooter : Message.decode FileFooter f = .ok footer := by
    rw [← hf]
    exact Message.decode_encode (FileFooter.fits hsized) (by decide)
  have hshort : ¬ content.length + f.length + p.length + Trailer.size < Trailer.size := by omega
  -- from the trailer to the footer, each part is where the one behind it says
  unfold readFooter
  rw [hfile]
  dsimp only
  rw [if_neg hshort, Nat.add_sub_cancel, htrailer, ok_bind, Trailer.decode_encode (by omega),
    ok_bind, if_neg (by omega), Nat.add_sub_cancel, hpostscript, ok_bind, hreadPostscript, ok_bind,
    PostScript.check_new, ok_bind]
  show (if content.length + f.length < f.length then _ else _) = _
  rw [if_neg (by omega)]
  show (store.read file (content.length + f.length - f.length) f.length >>= _) = _
  have hend : ¬ footer.contentLength ≠ content.length + f.length -
    (PostScript.new f.length).footerLength := by
    rw [hplace]
    show ¬ content.length ≠ content.length + f.length - f.length
    omega
  rw [Nat.add_sub_cancel, hfooter, ok_bind, hreadFooter, ok_bind, if_neg hend]
  rfl

/-- **A file whose path leads nowhere** cannot be opened. -/
theorem Reader.ofFile_nowhere {store : Store} {path : String} (hstore : store.foreign = false)
    (hpath : store.find? path = none) (options : ReaderOptions) :
    ofFile store path options = .error (.noSuchFile path) := by
  simp [ofFile, Store.open?, Store.fault, hpath, hstore, error_bind]

/-! ## (2) Files of ledgers -/

/-- **A file with the batches of a ledger**: its path leads to it, its footer is read, and a reader
finds the rows of each batch in a stripe. The statistics of a stripe count its rows, and those that
were refused before it; the statistics of the file count the rows that are counted. -/
structure Filed [Library] (store : Store) (path : String) (l : Ledger) (footer : FileFooter) :
    Prop where
  foreign : store.foreign = false
  stripes : ∃ file, store.open? path = .ok file ∧ Reader.readFooter store file path = .ok footer ∧
    List.Forall₂ (fun info b =>
      footer.Finds store file (store.find? (toastFileName path)) info b.rows ∧
        StatisticsDescribe info.statistics footer.schema (b.besides ++ b.rows)) footer.stripes
        l.stripes
  count : footer.rows = l.counted.length
  statistics : StatisticsDescribe footer.statistics footer.schema l.counted

namespace Filed

variable [Library] {store : Store} {path : String} {l : Ledger} {footer : FileFooter}
  {options : ReaderOptions}

/-- The stripes of a file have as many rows as the batches of its ledger. -/
theorem sum_rows (h : Filed store path l footer) :
    (footer.stripes.map (·.rows)).foldr (· + ·) 0 = l.written.length := by
  obtain ⟨file, -, -, hstripes⟩ := h.stripes
  have hfinds := List.forall₂_map_right_iff.mpr (hstripes.imp fun _ _ hinfo => hinfo.1)
  rw [← List.sum_eq_foldr, FileFooter.counts_of_finds hfinds, ← List.length_flatten,
    ← List.flatMap_def]
  rfl

/-- **The file is opened** when it counts as many rows as its stripes have; the reader then serves
the rows of the batches. -/
theorem serves (h : Filed store path l footer) (hcounts : l.counted.length = l.written.length)
    (hschema : Reader.checkSchema options.schema footer.schema = .ok ()) :
    ∃ r, Reader.ofFile store path options = .ok r ∧ r.footer = footer ∧ r.options = options ∧
    r.Fresh ∧
      r.Serves store (l.stripes.map Batch.rows) := by
  obtain ⟨file, hopen, hread, hstripes⟩ := h.stripes
  have hfinds := List.forall₂_map_right_iff.mpr (hstripes.imp fun _ _ hinfo => hinfo.1)
  refine ⟨{ path, file := some file, toastFile := store.find? (toastFileName path), footer,
            options }, ?_, rfl,
    rfl, ⟨rfl, rfl, rfl⟩, h.foreign, ⟨file, rfl, hfinds⟩, ?_⟩
  · unfold Reader.ofFile
    rw [hopen, ok_bind, hread, ok_bind, hschema, ok_bind, h.sum_rows, h.count, hcounts,
      if_neg fun hne => hne rfl]
    rfl
  · rw [h.count, hcounts, ← List.flatMap_def]
    rfl

/-- **A reader that has all groups** then finds the rows of the batches. -/
theorem opens (h : Filed store path l footer) (hcounts : l.counted.length = l.written.length)
    (hschema : Reader.checkSchema options.schema footer.schema = .ok ()) :
    ∃ r, Reader.ofFile store path options = .ok r ∧ r.footer = footer ∧ r.options = options ∧
      (options.filter = none → options.deleted = none →
        r.Ahead store (l.stripes.map Batch.rows) l.written) := by
  obtain ⟨r, hopen, hfooter, hoptions, hfresh, hserves⟩ := h.serves hcounts hschema
  refine ⟨r, hopen, hfooter, hoptions, ?_⟩
  intro hfilter hdeleted
  rw [← hoptions] at hfilter hdeleted
  rw [Ledger.written, List.flatMap_def]
  exact Reader.Opens.ahead ⟨hserves.foreign, hserves.stripes, hserves.count, hdeleted, hfilter⟩
    hfresh

/-- **The stripes of a clean ledger** are described by their statistics, which count no other
rows. -/
theorem described (h : Filed store path l footer) (hclean : l.Clean) :
    List.Forall₂ (fun info rows => StatisticsDescribe info.statistics footer.schema rows)
      footer.stripes
      (l.stripes.map Batch.rows) := by
  obtain ⟨file, -, -, hstripes⟩ := h.stripes
  refine List.forall₂_map_right_iff.mpr ((partners_mem hstripes).imp ?_)
  rintro info b ⟨-, hb, -, hinfo⟩
  rw [hclean.besides b hb, List.nil_append] at hinfo
  exact hinfo

/-- **The file is rejected** when it does not. -/
theorem rejects (h : Filed store path l footer) (hcounts : l.counted.length ≠ l.written.length)
    (hschema : Reader.checkSchema options.schema footer.schema = .ok ()) :
    Reader.ofFile store path options = .error .rowCounts := by
  obtain ⟨file, hopen, hread, -⟩ := h.stripes
  unfold Reader.ofFile
  rw [hopen, ok_bind, hread, ok_bind, hschema, ok_bind, h.sum_rows, h.count, if_pos hcounts.symm]
  rfl

end Filed

namespace Writer

open Writing

variable [Library]

/-! ## (3) Numbers that a file can carry -/

/-- **A writer whose numbers a file can carry**: the counts and lengths of its messages are within
the bounds of machine words and of MessagePack. -/
structure Fits (w : Writer) : Prop where
  columns : w.options.schema.length < 2 ^ 30
  names : ∀ spec ∈ w.options.schema, (Bytes.ofString spec.name).length < 2 ^ 32
  rows : w.tuples < 2 ^ 60
  length : w.offset + (tail w.footer).length < 2 ^ 64
  toastLength : w.toastOffset < 2 ^ 64
  stripes : w.stripes.length < 2 ^ 32
  statistics : ∀ s ∈ w.fileStatistics.finish, s.Sized
  stripeStatistics : ∀ info ∈ w.stripes, ∀ s ∈ info.statistics, s.Sized

/-- It can be decided whether the numbers of a writer fit. -/
instance (w : Writer) : Decidable w.Fits :=
  decidable_of_iff
    (w.options.schema.length < 2 ^ 30 ∧
      (∀ spec ∈ w.options.schema, (Bytes.ofString spec.name).length < 2 ^ 32) ∧ w.tuples < 2 ^ 60 ∧
      w.offset + (tail w.footer).length < 2 ^ 64 ∧ w.toastOffset < 2 ^ 64 ∧
      w.stripes.length < 2 ^ 32 ∧
      (∀ s ∈ w.fileStatistics.finish, s.Sized) ∧ ∀ info ∈ w.stripes, ∀ s ∈ info.statistics, s.Sized)
    ⟨fun ⟨h₁, h₂, h₃, h₄, h₅, h₆, h₇, h₈⟩ => ⟨h₁, h₂, h₃, h₄, h₅, h₆, h₇, h₈⟩, fun h =>
      ⟨h.columns, h.names, h.rows, h.length, h.toastLength, h.stripes, h.statistics,
        h.stripeStatistics⟩⟩

variable {w : Writer} {store : Store} {batches : List Batch} {b : Batch} {rows : List Row}
  {l : Ledger}

/-- **An entry of the directory** is within the bounds of a message. -/
theorem entry_sized {info : StripeInformation} {file : FileId} {toastFile : Option FileId}
    (hfits : w.Fits) (hinfo : info ∈ w.stripes)
    (hplaced : info.Placed store file toastFile w.options.schema w.options.format b)
    (hlength : (store.get file).length = w.offset) (hrows : info.rows < 2 ^ 60)
    (hwithin : info.toastOffset + info.toastLength ≤ w.toastOffset) : info.Sized := by
  obtain ⟨stripe, values, hd, -, hstripe, -⟩ := hplaced
  have hle := Bytes.le_of_slice? hstripe
  have hoffset := hfits.length
  have htoast := hfits.toastLength
  have hcolumns := hfits.columns
  rw [hd.length, StripeInformation.length, hlength] at hle
  refine ⟨by omega, by omega, by omega, by omega, by omega, by omega, ?_, ?_, ?_, ?_,
    hfits.stripeStatistics info hinfo⟩
  · have hfew := hd.toastCount
    omega
  · rw [hd.toastColumns]
    omega
  · intro n hn
    have hpart := List.le_sum_of_mem hn
    rw [hd.toastSum] at hpart
    omega
  · rw [hd.statistics]
    omega

/-- **The footer of a writer** is within the bounds of a message. -/
theorem footer_sized (h : w.Follows store l) (hfits : w.Fits)
    (hrows : ∀ info ∈ w.stripes, info.rows < 2 ^ 60) : w.footer.Sized := by
  obtain ⟨f, hf, -, hlength, -, hplaced⟩ := h.stored.file
  obtain ⟨cells, hcells, -⟩ := h.keeps.cells
  have hcolumns := hfits.columns
  have hoffset := hfits.length
  have htuples := hfits.rows
  -- every number of the footer is bounded by the length of the file or the number of rows
  refine ⟨?_, ?_, ?_, ?_, ?_, ?_, hfits.stripes, ?_, ?_, hfits.statistics⟩
  · show w.offset < 2 ^ 64
    omega
  · show w.tuples < 2 ^ 64
    omega
  · show w.options.schema.length < 2 ^ 32
    omega
  · intro spec hspec
    have halign := Column.align_le ((WriterOptions.validate_ok h.valid).2 spec hspec)
    exact ⟨hfits.names spec hspec, by omega⟩
  · show (w.columns.columns.map Column.attributes).length < 2 ^ 32
    rw [List.length_map, hcells.length_eq]
    omega
  · intro a ha
    obtain ⟨c, hc, rfl⟩ := List.mem_map.mp ha
    exact (h.keeps.learned c hc).sized
  · intro info hinfo
    obtain ⟨k, hk⟩ := List.mem_iff_getElem?.mp hinfo
    obtain ⟨b, -, hinfo'⟩ := partner hplaced hk
    exact entry_sized hfits hinfo hinfo' hlength (hrows info hinfo) (h.stored.within info hinfo)
  · show (w.fileStatistics.columns.map _).length < 2 ^ 32
    rw [List.length_map, h.fileStatistics.width]
    omega

/-! ## (4) Closing -/

omit [Library] in
/-- **The paths of a writer lead to its files.** -/
structure Leads (w : Writer) (store : Store) : Prop where
  file : store.find? w.options.fileName = w.file
  toast : w.toastFile ≠ none → store.find? w.options.toastFileName = w.toastFile

omit [Library] in
/-- The paths of a writer lead where they led. -/
theorem Leads.congr {w' : Writer} {store' : Store} (h : w.Leads store)
    (hoptions : w'.options = w.options) (hfile : w'.file = w.file)
    (htoastFile : w'.toastFile = w.toastFile)
    (hpath : store'.find? w.options.fileName = store.find? w.options.fileName)
    (htoast : w.toastFile ≠ none →
      store'.find? w.options.toastFileName = store.find? w.options.toastFileName) :
      w'.Leads store' := by
  constructor
  · rw [hoptions, hfile, hpath]
    exact h.file
  · intro hsome
    rw [htoastFile] at hsome ⊢
    rw [hoptions, htoast hsome]
    exact h.toast hsome

omit [Library] in
/-- The paths of a writer lead to its files after steps that only write. -/
theorem Advances.leads {ws ws' : Workspace} (hadvances : Advances ws ws')
    (h : ws.writer.Leads ws.archive.store) : ws'.writer.Leads ws'.archive.store :=
  h.congr hadvances.options hadvances.file hadvances.toastFile (hadvances.writes.find? _)
    fun _ => hadvances.writes.find? _

/-- **The files of a writer that was closed**: its file got its end, and the paths still lead to the
files that are not empty. -/
theorem closed_files {store' : Store} {file : FileId} {last : Bytes}
    (hstored : w.Stored store batches) (hleads : w.Leads store) (hfile : w.file = some file)
    (h : (w.toastFile.isSome = true ∧ w.toastOffset = 0 ∧
        (store.write file w.offset last).delete w.options.toastFileName = .ok store') ∨
      (¬ (w.toastFile.isSome = true ∧ w.toastOffset = 0) ∧
        store' = store.write file w.offset last)) :
    store'.foreign = false ∧ store'.get file = store.get file ++ last ∧
      (∀ t, w.toastFile = some t → store'.get t = store.get t) ∧
      store'.find? w.options.fileName = some file ∧
      (0 < w.toastOffset → store'.find? w.options.toastFileName = w.toastFile) := by
  obtain ⟨f, hf, hlt, hlength, hother, -⟩ := hstored.file
  cases hfile.symm.trans hf
  have hwrites : Store.Writes w.Owns store (store.write file w.offset last) :=
    Store.writes_write (.inl hfile) _ _
  have hforeign : (store.write file w.offset last).foreign = false :=
    hwrites.foreign.trans hstored.foreign
  have hself : (store.write file w.offset last).get file = store.get file ++ last := by
    rw [Store.get_write_self hstored.foreign hlt, ← hlength, Bytes.overwrite_length]
  have hothers : ∀ t, w.toastFile = some t →
    (store.write file w.offset last).get t = store.get t := by
    intro t ht
    refine Store.get_write_of_ne ?_ _ _
    rintro rfl
    exact hother ht
  rcases h with ⟨hsome, hempty, hdelete⟩ | ⟨hnot, rfl⟩
  · obtain ⟨t, ht⟩ := Option.isSome_iff_exists.mp hsome
    obtain ⟨hcontents, hforeign'⟩ := Store.contents_delete hdelete
    have hget : ∀ g, store'.get g = (store.write file w.offset last).get g := by
      intro g
      rw [Store.get, Store.get, hcontents]
    -- the path that was deleted led to another file
    have hdiffer : ¬ Path.same w.options.toastFileName w.options.fileName = true := by
      intro hsame
      have hfind := hleads.toast (by rw [ht]; exact Option.some_ne_none t)
      rw [Store.find?_same hstored.foreign hsame, hleads.file, hfile] at hfind
      exact hother hfind.symm
    refine ⟨hforeign'.trans hforeign, ?_, ?_, ?_, ?_⟩
    · rw [hget, hself]
    · intro t ht
      rw [hget, hothers t ht]
    · rw [Store.find?_delete hforeign hdelete, if_neg hdiffer, hwrites.find?, hleads.file, hfile]
    · intro hpositive
      rw [hempty] at hpositive
      exact absurd hpositive (Nat.lt_irrefl 0)
  · refine ⟨hforeign, hself, hothers, ?_, ?_⟩
    · rw [hwrites.find?, hleads.file, hfile]
    · intro hpositive
      rw [hwrites.find?]
      refine hleads.toast ?_
      intro hnone
      rw [hstored.noToast hnone] at hpositive
      exact absurd hpositive (Nat.lt_irrefl 0)

omit [Library] in
/-- The columns of a file are those that are expected, if any are. -/
theorem checkSchema_ok {expected : Option (List ColumnSpec)} {found : List ColumnSpec}
    (h : ∀ schema, expected = some schema → schema = found) :
    Reader.checkSchema expected found = .ok () := by
  cases expected with
  | none => rfl
  | some schema => rw [Reader.checkSchema, if_pos (h schema rfl)]

/-- **The file of a writer that was closed** is where its path leads, and ends with what follows the
stripes; its footer reads back. -/
theorem close_ends (hlibrary : BlockLibrary.Restores) {ws ws' : Workspace}
    (h : ws.writer.Follows ws.archive.store l) (hleads : ws.writer.Leads ws.archive.store)
    (hclose : runAt close ws = (.ok (), ws')) (hfits : ws'.writer.Fits)
    (hrows : ∀ info ∈ ws'.writer.stripes, info.rows < 2 ^ 60) :
    ∃ file content, ws'.archive.store.foreign = false ∧
      ws'.archive.store.open? ws.writer.options.fileName = .ok file ∧
      ws'.archive.store.get file = content ++ tail ws'.writer.footer ∧
      content.length = ws'.writer.offset ∧
      Reader.readFooter ws'.archive.store file ws.writer.options.fileName = .ok ws'.writer.footer ∧
      List.Forall₂ (fun info b => info.Sized ∧ info.rows < 2 ^ 60 ∧ ∃ stripe values,
          info.Describes ws.writer.options.schema ws.writer.options.format stripe values b.rows ∧
          StatisticsDescribe info.statistics ws.writer.options.schema (b.besides ++ b.rows) ∧
          content.slice? info.offset stripe.length = some stripe ∧
          (values ≠ [] → ∃ t, ws'.archive.store.find? ws.writer.options.toastFileName = some t ∧
            (ws'.archive.store.get t).slice? info.toastOffset values.length = some values))
        ws'.writer.stripes l.flushed.stripes := by
  obtain ⟨w₁, file, store, hflush, hfile, rfl, hstore⟩ := close_ok h.isOpen hclose
  obtain ⟨hadvances, hfollows⟩ := flush_follows hlibrary h hflush
  obtain ⟨hforeign, hcontent, htoast, hpath, htoastPath⟩ :=
    closed_files hfollows.stored (hadvances.leads hleads) hfile hstore
  rw [hadvances.options] at hpath
  have hfits₁ : w₁.writer.Fits :=
    ⟨hfits.columns, hfits.names, hfits.rows, hfits.length, hfits.toastLength,
    hfits.stripes, hfits.statistics, hfits.stripeStatistics⟩
  have hrows₁ : ∀ info ∈ w₁.writer.stripes, info.rows < 2 ^ 60 := hrows
  have hsized := footer_sized hfollows hfits₁ hrows₁
  obtain ⟨f, hf, -, hlength, -, hplaced⟩ := hfollows.stored.file
  cases hfile.symm.trans hf
  have hread : Reader.readFooter store file ws.writer.options.fileName = .ok w₁.writer.footer := by
    refine Reader.readFooter_tail _ hforeign hcontent hsized hlength.symm ?_
    rw [Store.length, hcontent, List.length_append, hlength]
    exact hfits₁.length
  have hopen : store.open? ws.writer.options.fileName = .ok file := by rw [Store.open?, hpath]
  refine ⟨file, w₁.archive.store.get file, hforeign, hopen, hcontent, hlength, hread,
    (partners_mem hplaced).imp ?_⟩
  -- every stripe of the directory is where it says, and its values out of line are in the file
  -- beside it
  rintro info b ⟨hinfo, -, hplaced⟩
  have hwithin := hfollows.stored.within info hinfo
  have hentry := entry_sized hfits₁ hinfo hplaced hlength (hrows₁ info hinfo) hwithin
  obtain ⟨stripe, values, hd, hstatistics, hstripe, hvalues⟩ := hplaced
  rw [hadvances.options] at hd hstatistics
  refine ⟨hentry, hrows₁ info hinfo, stripe, values, hd, hstatistics, hstripe, ?_⟩
  intro hne
  obtain ⟨t, ht, hslice⟩ := hvalues hne
  have hpositive := List.length_pos_iff.mpr hne
  rw [hd.toastLength] at hpositive
  refine ⟨t, ?_, ?_⟩
  · rw [← ht, ← htoastPath (by omega), hadvances.options]
  · rw [htoast t ht]
    exact hslice

/-- **The file of a writer that was closed** has the batches of its ledger, the last of them made of
the rows that were kept. -/
theorem close_filed (hlibrary : BlockLibrary.Restores) {ws ws' : Workspace}
    (h : ws.writer.Follows ws.archive.store l) (hleads : ws.writer.Leads ws.archive.store)
    (hclose : runAt close ws = (.ok (), ws')) (hfits : ws'.writer.Fits)
    (hrows : ∀ info ∈ ws'.writer.stripes, info.rows < 2 ^ 60) :
    ∃ footer, Filed ws'.archive.store ws.writer.options.fileName l.flushed footer ∧
      footer.schema = ws.writer.options.schema := by
  obtain ⟨file, content, hforeign, hopen, hcontent, hlength, hread, hplaced⟩ :=
    close_ends hlibrary h hleads hclose hfits hrows
  obtain ⟨w₁, file', store, hflush, -, rfl, -⟩ := close_ok h.isOpen hclose
  obtain ⟨hadvances, hfollows⟩ := flush_follows hlibrary h hflush
  have hoptions : w₁.writer.options = ws.writer.options := hadvances.options
  have hschema : w₁.writer.footer.schema = ws.writer.options.schema :=
    congrArg WriterOptions.schema hoptions
  have hcolumns : ws.writer.options.schema.length < 2 ^ 30 := by
    rw [← hoptions]
    exact hfits.columns
  refine ⟨w₁.writer.footer, ⟨hforeign, ⟨file, hopen, hread, hplaced.imp ?_⟩, hfollows.tuples,
    hfollows.fileStatistics.finish⟩, hschema⟩
  rintro info b ⟨hentry, hcount, stripe, values, hd, hstatistics, hstripe, hvalues⟩
  rw [← hoptions] at hd hstatistics hcolumns
  refine ⟨?_, hstatistics⟩
  have hend := Bytes.le_of_slice? hstripe
  rw [hd.length, hlength] at hend
  rw [hd.count] at hcount
  refine hd.finds hforeign (WriterOptions.validate_ok hfollows.valid).1 hcolumns hcount
    hentry.dataLength
    hentry.toastLength hend ?_ hvalues
  rw [hcontent]
  exact Bytes.slice?_append_left hstripe _

/-- **The stripes of a writer that was closed** have no more rows than it counts, if every row is
counted. -/
theorem close_rows_lt (hlibrary : BlockLibrary.Restores) {ws ws' : Workspace}
    (h : ws.writer.Follows ws.archive.store l) (hbacked : l.Backed)
    (hclose : runAt close ws = (.ok (), ws')) (hfits : ws'.writer.Fits) :
    ∀ info ∈ ws'.writer.stripes, info.rows < 2 ^ 60 := by
  obtain ⟨w₁, file, store, hflush, -, rfl, -⟩ := close_ok h.isOpen hclose
  obtain ⟨-, hfollows⟩ := flush_follows hlibrary h hflush
  obtain ⟨f, -, -, -, -, hplaced⟩ := hfollows.stored.file
  intro info hinfo
  obtain ⟨k, hk⟩ := List.mem_iff_getElem?.mp hinfo
  obtain ⟨b, hb, stripe, values, hd, -⟩ := partner hplaced hk
  calc
    info.rows = b.rows.length := hd.count
    _ ≤ (l.flushed.stripes.map Batch.rows).flatten.length :=
        (List.sublist_flatten_of_mem (List.mem_map_of_mem (List.mem_of_getElem? hb))).length_le
    _ = l.rows.length := by rw [← List.flatMap_def, ← l.written_flushed, Ledger.written]
    _ ≤ l.counted.length := hbacked.rows.length_le
    _ = w₁.writer.tuples := by
        rw [← l.counted_flush (.ok ())]
        exact hfollows.tuples.symm
    _ < 2 ^ 60 := hfits.rows

/-- **The file of a writer that was closed has its rows**, if none of its calls failed: a reader
that has all groups opens it and finds them. -/
theorem close_ahead (hlibrary : BlockLibrary.Restores) {ws ws' : Workspace}
    (h : ws.writer.Holds ws.archive.store rows) (hleads : ws.writer.Leads ws.archive.store)
    (hclose : runAt close ws = (.ok (), ws')) (hfits : ws'.writer.Fits) (options : ReaderOptions)
    (hfilter : options.filter = none) (hdeleted : options.deleted = none)
    (hschema : ∀ schema, options.schema = some schema → schema = ws.writer.options.schema) :
    ∃ r groups, Reader.ofFile ws'.archive.store ws.writer.options.fileName options = .ok r ∧
      r.Ahead ws'.archive.store groups rows ∧ groups.flatten = rows := by
  obtain ⟨l, hfollows, hclean, rfl⟩ := h
  obtain ⟨footer, hfiled, hcolumns⟩ := close_filed hlibrary hfollows hleads hclose hfits
    (close_rows_lt hlibrary hfollows hclean.backed hclose hfits)
  rw [← hcolumns] at hschema
  obtain ⟨r, hopen, -, -, hahead⟩ :=
    hfiled.opens (by rw [l.counted_flushed, l.written_flushed, hclean.counted])
    (checkSchema_ok hschema)
  have hrows := hahead hfilter hdeleted
  rw [l.written_flushed] at hrows
  refine ⟨r, _, hopen, hrows, ?_⟩
  rw [← List.flatMap_def]
  exact l.written_flushed

/-- **What closing leaves alone**: the files of others, and all paths but that of its file of
values. -/
theorem close_leaves (hlibrary : BlockLibrary.Restores) {ws ws' : Workspace}
    (h : ws.writer.Follows ws.archive.store l) (hclose : runAt close ws = (.ok (), ws')) :
    ws'.archive.store.foreign = false ∧
      ws'.archive.store.contents.length = ws.archive.store.contents.length ∧
      (∀ file, ¬ ws.writer.Owns file → ws'.archive.store.get file = ws.archive.store.get file) ∧
      ∀ path, ws'.archive.store.find? path = ws.archive.store.find? path ∨
        (ws.writer.toastFile ≠ none ∧ Path.same ws.writer.options.toastFileName path = true ∧
          ws'.archive.store.find? path = none) := by
  obtain ⟨w₁, file, store, hflush, hfile, rfl, hstore⟩ := close_ok h.isOpen hclose
  obtain ⟨hadvances, hfollows⟩ := flush_follows hlibrary h hflush
  have hstored := hfollows.stored
  -- first the octets are written, to a file of this writer
  generalize hlast : w₁.archive.store.write file w₁.writer.offset (tail w₁.writer.footer) =
    last at hstore
  have hwrites : Store.Writes ws.writer.Owns ws.archive.store last := by
    rw [← hlast]
    refine hadvances.writes.trans ?_
    rw [← hadvances.owns]
    exact Store.writes_write (.inl hfile) _ _
  have hforeign : last.foreign = false := by
    rw [← hlast, Store.write_own hstored.foreign]
    exact hstored.foreign
  -- then a path may be deleted
  rcases hstore with ⟨hsome, -, hdelete⟩ | ⟨-, rfl⟩
  · obtain ⟨hcontents, hforeign'⟩ := Store.contents_delete hdelete
    have hthere : ws.writer.toastFile ≠ none := by
      rw [← hadvances.toastFile]
      exact Option.isSome_iff_ne_none.mp hsome
    refine ⟨hforeign'.trans hforeign, ?_, ?_, ?_⟩
    · show store.contents.length = _
      rw [hcontents, hwrites.count]
    · intro g hg
      show store.get g = _
      rw [Store.get, hcontents, ← Store.get, hwrites.others g hg]
    · intro path
      show store.find? path = _ ∨ (_ ∧ _ ∧ store.find? path = none)
      rw [Store.find?_delete hforeign hdelete, hwrites.find?, hadvances.options]
      by_cases hsame : Path.same ws.writer.options.toastFileName path = true
      · exact .inr ⟨hthere, hsame, if_pos hsame⟩
      · exact .inl (if_neg hsame)
  · exact ⟨hforeign, hwrites.count, hwrites.others, fun path => .inl (hwrites.find? path)⟩

/-- **What closing leaves alone**, if no call of the writer failed: the files of others, and the
paths that lead nowhere. -/
theorem close_frame (hlibrary : BlockLibrary.Restores) {ws ws' : Workspace}
    (h : ws.writer.Holds ws.archive.store rows) (hclose : runAt close ws = (.ok (), ws')) :
    ws'.archive.store.foreign = false ∧
      ws'.archive.store.contents.length = ws.archive.store.contents.length ∧
      (∀ file, ¬ ws.writer.Owns file → ws'.archive.store.get file = ws.archive.store.get file) ∧
      ∀ path, ws.archive.store.find? path = none → ws'.archive.store.find? path = none := by
  obtain ⟨l, hfollows, -⟩ := h
  obtain ⟨hforeign, hcount, hget, hpaths⟩ := close_leaves hlibrary hfollows hclose
  refine ⟨hforeign, hcount, hget, ?_⟩
  intro path hnone
  rcases hpaths path with hsame | ⟨-, -, hgone⟩
  · exact hsame.trans hnone
  · exact hgone

end Writer

end ColumnFile
