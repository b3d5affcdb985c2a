import ColumnFile.Proofs.Message.Accepted
import ColumnFile.Proofs.Statistics.Machine
import ColumnFile.Proofs.Writer.Close
import ColumnFile.Statistics.Digest

/-! # Statistics of a file from anywhere

A reader opens a file without a look at its statistics, so those that it returns are any that a
message can hold. About most of them a query ends with an answer: no bit is looked up behind the
words of a filter. But nothing keeps a file from having a filter without words, and when one that
has bits for each digest is asked, the machine stops.

* **`Reader.footer_decoded`** — the footer of a reader is a message.
* **`Machine.openFile_eq`** — a machine opens the same files; it stops when the rows of one exceed a
  word.
* **`Reader.Returns`** — the statistics that a reader returns; **`Reader.Returns.sized`**.
* **`Reader.ofFile_tail`** — whatever statistics within bounds a footer has, a reader opens a file
  with it.
* **`Reader.mayContain_of_ofFile`** — what a query of the statistics of a file comes to. -/

namespace ColumnFile

variable {store : Store} {path : String} {options : ReaderOptions} {r : Reader}
  {s : ColumnStatistics}

namespace Reader

/-! ## (1) What a reader returns -/

/-- A footer that was read is a message. -/
theorem readFooter_decoded {file : FileId} {footer : FileFooter}
    (h : readFooter store file path = .ok footer) :
    ∃ bs, Message.decode FileFooter bs = .ok footer := by
  unfold readFooter at h
  dsimp only at h
  split at h
  · cases h
  · obtain ⟨trailer, -, h⟩ := bind_eq_ok h
    obtain ⟨postscriptLength, -, h⟩ := bind_eq_ok h
    split at h
    · cases h
    · obtain ⟨octets, -, h⟩ := bind_eq_ok h
      obtain ⟨postscript, -, h⟩ := bind_eq_ok h
      obtain ⟨_, -, h⟩ := bind_eq_ok h
      split at h
      · cases h
      · obtain ⟨bs, -, h⟩ := bind_eq_ok h
        obtain ⟨decoded, hdecoded, h⟩ := bind_eq_ok h
        split at h
        · cases h
        · cases h
          exact ⟨bs, hdecoded⟩

/-- **The footer of a reader** was decoded from octets of the file. -/
theorem footer_decoded (h : ofFile store path options = .ok r) :
    ∃ bs, Message.decode FileFooter bs = .ok r.footer := by
  unfold ofFile at h
  obtain ⟨file, -, h⟩ := bind_eq_ok h
  obtain ⟨footer, hfooter, h⟩ := bind_eq_ok h
  obtain ⟨_, -, h⟩ := bind_eq_ok h
  split at h
  · cases h
  · cases h
    exact readFooter_decoded hfooter

end Reader

namespace Machine

/-- The rows of some groups are summed as long as there are fewer than a word counts. By induction
on the groups. -/
theorem totalRows_eq (stripes : List StripeInformation) {total : Nat}
    (htotal : total < UInt64.size) :
    stripes.foldlM (fun total info => add total info.rows) total =
      if total + (stripes.map (·.rows)).foldr (· + ·) 0 < UInt64.size
      then .ok (total + (stripes.map (·.rows)).foldr (· + ·) 0) else .error (.trap .overflow) := by
  induction stripes generalizing total with
  | nil => exact (if_pos htotal).symm
  | cons info stripes ih =>
      rw [List.foldlM_cons, List.map_cons, List.foldr_cons, ← Nat.add_assoc]
      by_cases hnext : total + info.rows < UInt64.size
      · rw [add_eq hnext, ok_bind]
        exact ih hnext
      · rw [add_overflow (Nat.not_lt.mp hnext), if_neg (by omega)]
        rfl

/-- **A machine opens a file** as it is opened apart from one, whatever the file holds; or the rows
of its groups are more than a word counts, and the machine stops where the file is refused, because
the footer counts fewer. -/
theorem openFile_eq (store : Store) (path : String) (options : ReaderOptions) :
    openFile store path options = (Reader.ofFile store path options).mapError .fault ∨
      openFile store path options = .error (.trap .overflow) ∧
        Reader.ofFile store path options = .error .rowCounts := by
  unfold openFile Reader.ofFile
  -- up to the sum of the rows nothing is different
  cases store.open? path with
  | error e => exact .inl rfl
  | ok file =>
    rw [Except.mapError, ok_bind, ok_bind]
    cases hfooter : Reader.readFooter store file path with
    | error e => exact .inl rfl
    | ok footer =>
      rw [Except.mapError, ok_bind, ok_bind]
      cases Reader.checkSchema options.schema footer.schema with
      | error e => exact .inl rfl
      | ok u =>
        rw [Except.mapError, ok_bind, ok_bind, totalRows, totalRows_eq _ (by decide), Nat.zero_add]
        obtain ⟨bs, hdecode⟩ := Reader.readFooter_decoded hfooter
        have hrows := (FileFooter.of_decode hdecode).1
        generalize (footer.stripes.map (·.rows)).foldr (· + ·) 0 = total
        by_cases htotal : total < UInt64.size
        · rw [if_pos htotal, ok_bind]
          by_cases hcounts : total = footer.rows
          · rw [if_neg (not_not_intro hcounts), if_neg (not_not_intro hcounts)]
            exact .inl rfl
          · rw [if_pos hcounts, if_pos hcounts]
            exact .inl rfl
        · -- the footer counts its rows in a word, so the counts differ
          have hdiffer : total ≠ footer.rows := fun hsame => htotal (hsame ▸ hrows)
          rw [if_neg htotal, if_pos hdiffer]
          exact .inr ⟨rfl, rfl⟩

end Machine

namespace Reader

/-- **A reader returns statistics**: of the file, or of one of its groups. -/
def Returns (r : Reader) (s : ColumnStatistics) : Prop :=
  s ∈ r.footer.statistics ∨ ∃ index columns, r.groupStatistics index = .ok columns ∧ s ∈ columns

/-- The statistics that a reader returns are those of the footer. -/
theorem Returns.has (h : r.Returns s) : r.footer.Has s := by
  rcases h with h | ⟨index, columns, hcolumns, hs⟩
  · exact .inl h
  · unfold groupStatistics information at hcolumns
    cases hinfo : r.footer.stripes[index]? with
    | none =>
        rw [hinfo] at hcolumns
        cases hcolumns
    | some info =>
        rw [hinfo] at hcolumns
        cases hcolumns
        exact .inr ⟨info, List.mem_of_getElem? hinfo, hs⟩

/-- **The statistics that a reader returns** are within the bounds of a message. -/
theorem Returns.sized (hs : r.Returns s) (h : ofFile store path options = .ok r) : s.Sized := by
  obtain ⟨bs, hdecode⟩ := footer_decoded h
  exact (FileFooter.of_decode hdecode).2 s hs.has

/-! ## (2) What a file may have -/

/-- A store with one file, of a footer and nothing in front of it. -/
def storeOf (footer : FileFooter) : Store :=
  { paths := [("f", 0)], contents := [Writer.tail footer] }

/-- **A file with any footer** within the bounds of a message is opened, when that counts the rows
of its stripes: nothing is asked of the statistics. -/
theorem ofFile_tail {footer : FileFooter} (hsized : footer.Sized)
    (hplace : footer.contentLength = 0)
    (hrows : (footer.stripes.map (·.rows)).foldr (· + ·) 0 = footer.rows)
    (hlength : (Writer.tail footer).length < 2 ^ 64) :
    ∃ r, ofFile (storeOf footer) "f" {} = .ok r ∧ r.footer = footer := by
  have hopen : (storeOf footer).open? "f" = .ok 0 := by
    have hsame : Path.same "f" "f" = true := by decide
    have hfind : (storeOf footer).find? "f" = some 0 := by
      rw [Store.find?_own rfl]
      simp [storeOf, hsame]
    rw [Store.open?, hfind]
  have hread : readFooter (storeOf footer) 0 "f" = .ok footer :=
    readFooter_tail "f" rfl (List.nil_append _).symm hsized hplace hlength
  let r : Reader :=
    { path := "f", file := some 0, toastFile := (storeOf footer).find? (toastFileName "f"), footer,
      options := {} }
  refine ⟨r, ?_, rfl⟩
  unfold ofFile
  rw [hopen, ok_bind, hread, ok_bind]
  dsimp only [checkSchema]
  rw [ok_bind, if_neg fun hne => hne hrows]
  rfl

/-! ## (3) Queries -/

/-- **What a query of the statistics of a file comes to**, for every datum and whatever the file
holds. It ends with the answer that the statistics give apart from a machine, or the machine stops
at a division by zero: no bit is looked up behind the words of a filter, and no other operand is out
of range. The machine does stop when a filter without words is asked about a digest that has bits in
it, and only then. -/
theorem mayContain_of_ofFile [BloomScheme] (h : ofFile store path options = .ok r)
    (hs : r.Returns s) (d : Datum) :
    (Machine.mayContain s d = .ok (s.mayContain d) ∨
      Machine.mayContain s d = .error (.trap .divisor)) ∧
      (Machine.mayContain s d = .error (.trap .divisor) ↔ s.Asks d ∧ ∃ f, s.bloom = some f ∧
        f.Hollow) := by
  have hsize : ∀ f, s.bloom = some f → f.words.size < 2 ^ 32 := fun f hf =>
    ((hs.sized h).bloom f hf).words
  rw [Machine.mayContain_eq hsize]
  by_cases htrap : s.Asks d ∧ ∃ f, s.bloom = some f ∧ f.Hollow
  · rw [if_pos htrap]
    exact ⟨.inr rfl, iff_of_true rfl htrap⟩
  · rw [if_neg htrap]
    exact ⟨.inl rfl, iff_of_false (fun hstop => nomatch hstop) htrap⟩

/-- Statistics of a row that is not null, with a filter of seven bits for each digest and no
words. -/
def hollowStatistics : ColumnStatistics :=
  { rows := 1, nonNull := 1, bloom := some { words := #[], hashes := 7 } }

/-- A file with such statistics is opened, and a query of them stops the machine. -/
theorem mayContain_of_ofFile_hollow :
    ∃ store r, ofFile store "f" {} = .ok r ∧ r.footer.statistics = [hollowStatistics] ∧
      r.Returns hollowStatistics ∧ hollowStatistics.Asks (.int32 1) ∧
      @Machine.mayContain .standard hollowStatistics (.int32 1) = .error (.trap .divisor) := by
  let _ : BloomScheme := .standard
  let footer : FileFooter := { statistics := [hollowStatistics] }
  have hsized : footer.Sized :=
    { contentLength := by decide, rows := by decide, columns := by decide,
      attributesCount := by decide
      stripesCount := by decide, statisticsCount := by decide, statistics := by decide
      schema := fun _ hnone => nomatch hnone
      attributes := fun _ hnone => nomatch hnone
      stripes := fun _ hnone => nomatch hnone }
  have hlength : (Writer.tail footer).length < 2 ^ 64 := by decide +kernel
  obtain ⟨r, hopen, hfooter⟩ := ofFile_tail hsized rfl rfl hlength
  have hstatistics : r.footer.statistics = [hollowStatistics] := by rw [hfooter]
  have hreturns : r.Returns hollowStatistics := .inl (hstatistics ▸ List.mem_singleton_self _)
  have hasks : hollowStatistics.Asks (.int32 1) := by decide
  have hstop := (mayContain_of_ofFile hopen hreturns (.int32 1)).2.mpr ⟨hasks, _, rfl, by decide⟩
  exact ⟨storeOf footer, r, hopen, hstatistics, hreturns, hasks, hstop⟩

end Reader

end ColumnFile
