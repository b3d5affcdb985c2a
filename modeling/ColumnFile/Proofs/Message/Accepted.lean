import ColumnFile.Message.Footer
import ColumnFile.Proofs.MessagePack.Accepted
import ColumnFile.Proofs.Message.File

/-! # Statistics that a message can hold

Whatever octets stand in the place of a footer, the statistics that are read of it are within the
bounds of a message: their filters have fewer words than a size can count. Nothing else is known of
them; the range, the words of a filter and the number of bits for each digest need not belong
together.

* **`ValueRange.yields`**, **`BloomFilter.yields`**, **`ColumnStatistics.yields`** — the parts.
* **`FileFooter.yields`** — the footer of a file; **`FileFooter.of_decode`** for one that was
  decoded. -/

namespace ColumnFile

open MessagePack (Fields Shape Value)

/-! ## (1) Statistics -/

namespace ValueRange

/-- Both ends of a range are read by one shape. -/
theorem of_readEnds {α : Type} {s : Shape α} {P : α → Prop} {build : α → α → ValueRange}
    {levels : Nat} {v : Value} {r : ValueRange} (hs : s.Yields P) (hv : v.Held)
    (h : readEnds s build levels v = some r) :
    ∃ min max, P min ∧ P max ∧ r = build min max := by
  obtain ⟨f, hf, h⟩ := Option.bind_eq_some_iff.mp h
  obtain ⟨min, hmin, h⟩ := Option.bind_eq_some_iff.mp h
  obtain ⟨max, hmax, h⟩ := Option.bind_eq_some_iff.mp h
  have hheld := Fields.held_of_ofValue? hv hf
  cases h
  exact ⟨min, max, Fields.of_get hheld hs hmin, Fields.of_get hheld hs hmax, rfl⟩

/-- **A range** has ends of bounded length. -/
theorem yields : shape.Yields Sized where
  read := by
    rintro levels v r ⟨depth, hv⟩ hread
    unfold shape at hread
    dsimp only at hread
    split at hread
    · rename_i key body
      have hbody : body.Held := by
        cases hv with
        | map _ _ hvalues => exact ⟨_, hvalues _ List.mem_cons_self⟩
      obtain ⟨kind, -, hread⟩ := Option.bind_eq_some_iff.mp hread
      split at hread
      · obtain ⟨min, max, -, -, rfl⟩ := of_readEnds (Shape.yields_any _) hbody hread
        trivial
      · obtain ⟨min, max, -, -, rfl⟩ := of_readEnds (Shape.yields_any _) hbody hread
        trivial
      · obtain ⟨min, max, hmin, hmax, rfl⟩ :=
          of_readEnds (Shape.list_yields (Shape.yields_any .octet)) hbody hread
        exact ⟨hmin.1, hmax.1⟩
    · cases hread
  unnamed h := nomatch h
  behind h := nomatch h

end ValueRange

/-- **A filter** has a bounded number of words, and of bits for each digest. -/
theorem BloomFilter.yields : shape.Yields Sized := by
  refine Shape.record_yields ?_
  intro f b hf h
  obtain ⟨words, hwords, h⟩ := Option.bind_eq_some_iff.mp h
  obtain ⟨hashes, hhashes, h⟩ := Option.bind_eq_some_iff.mp h
  cases h
  have hcount := (Fields.of_get hf (Shape.list_yields (Shape.yields_any .word64)) hwords).1
  have hbits := Fields.of_get hf (Shape.nat_yields 32) hhashes
  exact ⟨by simpa using hcount, hbits⟩

/-- **The statistics of a column** are within the bounds of a message. -/
theorem ColumnStatistics.yields : shape.Yields Sized := by
  refine Shape.record_yields ?_
  intro f s hf h
  obtain ⟨rows, hrows, h⟩ := Option.bind_eq_some_iff.mp h
  obtain ⟨nonNull, hnonNull, h⟩ := Option.bind_eq_some_iff.mp h
  obtain ⟨hasNull, -, h⟩ := Option.bind_eq_some_iff.mp h
  obtain ⟨allNull, -, h⟩ := Option.bind_eq_some_iff.mp h
  obtain ⟨range, hrange, h⟩ := Option.bind_eq_some_iff.mp h
  obtain ⟨bloom, hbloom, h⟩ := Option.bind_eq_some_iff.mp h
  cases h
  have hcount : rows < 2 ^ 64 := Fields.of_get (P := (· < 2 ^ 64)) hf (Shape.nat_yields 64) hrows
  have hcount' : nonNull < 2 ^ 64 :=
    Fields.of_get (P := (· < 2 ^ 64)) hf (Shape.nat_yields 64) hnonNull
  exact ⟨hcount, hcount', Fields.of_get hf (Shape.option_yields ValueRange.yields) hrange,
    Fields.of_get hf (Shape.option_yields BloomFilter.yields) hbloom⟩

/-! ## (2) Footers -/

/-- **An entry of the directory** has statistics within the bounds of a message. -/
theorem StripeInformation.yields : shape.Yields fun info => ∀ s ∈ info.statistics, s.Sized := by
  refine Shape.record_yields ?_
  intro f info hf h
  obtain ⟨offset, -, h⟩ := Option.bind_eq_some_iff.mp h
  obtain ⟨dataLength, -, h⟩ := Option.bind_eq_some_iff.mp h
  obtain ⟨footerLength, -, h⟩ := Option.bind_eq_some_iff.mp h
  obtain ⟨rows, -, h⟩ := Option.bind_eq_some_iff.mp h
  obtain ⟨toastOffset, -, h⟩ := Option.bind_eq_some_iff.mp h
  obtain ⟨toastLength, -, h⟩ := Option.bind_eq_some_iff.mp h
  obtain ⟨toastCount, -, h⟩ := Option.bind_eq_some_iff.mp h
  obtain ⟨toastLengths, -, h⟩ := Option.bind_eq_some_iff.mp h
  obtain ⟨statistics, hstatistics, h⟩ := Option.bind_eq_some_iff.mp h
  cases h
  exact (Fields.of_get hf (Shape.list_yields ColumnStatistics.yields) hstatistics).2

/-- **The statistics of a footer**: those of the file and those of its stripes. -/
def FileFooter.Has (f : FileFooter) (s : ColumnStatistics) : Prop :=
  s ∈ f.statistics ∨ ∃ info ∈ f.stripes, s ∈ info.statistics

/-- **A footer** counts its rows in a word, and has statistics within the bounds of a message. -/
theorem FileFooter.yields : shape.Yields fun f => f.rows < 2 ^ 64 ∧ ∀ s, f.Has s → s.Sized := by
  refine Shape.record_yields ?_
  intro f footer hf h
  obtain ⟨contentLength, -, h⟩ := Option.bind_eq_some_iff.mp h
  obtain ⟨rows, hrows, h⟩ := Option.bind_eq_some_iff.mp h
  obtain ⟨format, -, h⟩ := Option.bind_eq_some_iff.mp h
  obtain ⟨schema, -, h⟩ := Option.bind_eq_some_iff.mp h
  obtain ⟨attributes, -, h⟩ := Option.bind_eq_some_iff.mp h
  obtain ⟨stripes, hstripes, h⟩ := Option.bind_eq_some_iff.mp h
  obtain ⟨statistics, hstatistics, h⟩ := Option.bind_eq_some_iff.mp h
  cases h
  refine ⟨Fields.of_get (P := (· < 2 ^ 64)) hf (Shape.nat_yields 64) hrows, ?_⟩
  rintro s (hs | ⟨info, hinfo, hs⟩)
  · exact (Fields.of_get hf (Shape.list_yields ColumnStatistics.yields) hstatistics).2 s hs
  · exact (Fields.of_get hf (Shape.list_yields StripeInformation.yields) hstripes).2 info hinfo s hs

/-- **A footer that was decoded**, from whatever octets, counts its rows in a word, and its
statistics are within the bounds of a message. -/
theorem FileFooter.of_decode {bs : Bytes} {footer : FileFooter}
    (h : Message.decode FileFooter bs = .ok footer) :
    footer.rows < 2 ^ 64 ∧ ∀ s, footer.Has s → s.Sized := by
  unfold Message.decode at h
  cases hvalue : Value.decode? bs >>= Message.ofValue? FileFooter with
  | none =>
      rw [hvalue] at h
      cases h
  | some decoded =>
      rw [hvalue] at h
      cases h
      obtain ⟨v, hv, hread⟩ := Option.bind_eq_some_iff.mp hvalue
      exact FileFooter.yields.read ⟨_, Value.sized_of_decode? hv⟩ hread

end ColumnFile
