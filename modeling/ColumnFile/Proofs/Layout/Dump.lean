import ColumnFile.Layout.Hexdump
import ColumnFile.Proofs.Layout.Tiling

/-! # Dumps of ranges that tile

A dump points out what is wrong with the ranges that it is given: those that begin before the one
before them ends, octets that lie between two of them, and those that end behind the buffer. Of
ranges that tile a part of the buffer it points out nothing, whatever octets are there.

* **`Hexdump.IsError`** — a line that points out an error.
* **`Hexdump.shows_rowsFrom`** — the lines that show octets are no such lines.
* **`Hexdump.splitOn_join`** — the lines of a text are those that it was made of.
* **`Annotations.Continues.hexdump`** — the dump of ranges that tile a part of the buffer. -/

namespace ColumnFile

namespace Hexdump

/-! ## (1) Texts on a line -/

/-- **A line that points out an error**: an overlap, a gap, or an end behind the buffer. -/
def IsError (line : List Char) : Prop := "- ERROR".toList <+: line

/-- A text that **stays on its line**. -/
def OneLine (s : String) : Prop := '\n' ∉ s.toList

/-- It can be decided whether a text is a line. -/
instance (s : String) : Decidable (OneLine s) := inferInstanceAs (Decidable ('\n' ∉ s.toList))

variable {s t : String}

/-- A line behind a line is one. -/
theorem OneLine.append (hs : OneLine s) (ht : OneLine t) : OneLine (s ++ t) := by
  rw [OneLine, String.toList_append, List.mem_append]
  exact not_or.mpr ⟨hs, ht⟩

/-- Lines that are joined are one. -/
theorem oneLine_join {parts : List String} (h : ∀ part ∈ parts, OneLine part) :
    OneLine (String.join parts) := by
  rw [OneLine, String.toList_join]
  intro hmem
  obtain ⟨part, hpart, hin⟩ := List.mem_flatMap.mp hmem
  exact h part hpart hin

/-- Characters without an end of a line are a line. -/
theorem oneLine_ofList {cs : List Char} (h : '\n' ∉ cs) : OneLine (String.ofList cs) := by
  rw [OneLine, String.toList_ofList]
  exact h

/-- **The digits of a number** are no ends of lines. -/
theorem newline_notMem_toDigits (n : Nat) : '\n' ∉ Nat.toDigits 16 n := by
  induction n using Nat.strongRecOn with
  | ind n ih =>
      have hdigit : ∀ k, '\n' ≠ Nat.digitChar k := fun k => (Nat.digitChar_ne '\n' (by decide)).symm
      rw [Nat.toDigits_eq_if (by decide)]
      by_cases hsmall : n < 16
      · rw [if_pos hsmall, List.mem_singleton]
        exact hdigit n
      · rw [if_neg hsmall, List.mem_append, List.mem_singleton]
        exact not_or.mpr ⟨ih (n / 16) (Nat.div_lt_self (by omega) (by decide)), hdigit _⟩

/-- Digits are a line. -/
theorem oneLine_digits (width n : Nat) : OneLine (digits width n) := by
  refine oneLine_ofList ?_
  rw [List.mem_append]
  refine not_or.mpr ⟨?_, newline_notMem_toDigits n⟩
  intro hzero
  exact absurd (List.eq_of_mem_replicate hzero) (by decide)

/-- **A character of a row** is no end of a line. -/
theorem newline_ne_character (b : UInt8) : '\n' ≠ character b := by
  rw [character]
  by_cases hseen : 0x21 ≤ b ∧ b ≤ 0x7e
  · rw [if_pos hseen]
    intro hsame
    have hlow : 0x21 ≤ b.toNat := hseen.1
    have hhigh : b.toNat ≤ 0x7e := hseen.2
    have hvalid : b.toNat.isValidChar := .inl (by omega)
    have hvalue : (Char.ofNat b.toNat).toNat = b.toNat := by
      rw [Char.ofNat, dif_pos hvalid]
      rfl
    rw [← hsame] at hvalue
    have hten : '\n'.toNat = 10 := rfl
    omega
  · rw [if_neg hseen]
    decide

/-! ## (2) Rows -/

/-- **A line that shows octets**: it is one line, and begins with a tabulator. -/
def Shows (line : String) : Prop := ∃ rest, OneLine rest ∧ line = "\t " ++ rest

/-- A row of a dump shows octets. -/
theorem shows_row (position : Nat) (bs : Bytes) : Shows (row position bs) := by
  have hdigits : OneLine (rowDigits bs) := by
    refine oneLine_join fun part hpart => ?_
    obtain ⟨group, -, rfl⟩ := List.mem_map.mp hpart
    have hblanks : OneLine "  " := by decide
    refine hblanks.append (oneLine_join fun part hpart => ?_)
    obtain ⟨b, -, rfl⟩ := List.mem_map.mp hpart
    have hblank : OneLine " " := by decide
    exact hblank.append (oneLine_digits 2 _)
  have hblanks : OneLine (rowBlanks (rowWidth - bs.length)) := by
    refine oneLine_join fun part hpart => ?_
    obtain ⟨i, -, rfl⟩ := List.mem_map.mp hpart
    by_cases hlast : i % groupWidth = groupWidth - 1
    · rw [if_pos hlast]
      decide
    · rw [if_neg hlast]
      decide
  have hcharacters : OneLine (String.ofList (bs.map character)) := by
    refine oneLine_ofList fun hmem => ?_
    obtain ⟨b, -, hb⟩ := List.mem_map.mp hmem
    exact newline_ne_character b hb.symm
  have hbar : OneLine " |" := by decide
  have hbar' : OneLine "   | " := by decide
  refine ⟨_, ((oneLine_digits 8 position).append hbar).append
    (hdigits.append (hblanks.append (hbar'.append hcharacters))), ?_⟩
  simp only [row, String.append_assoc]

/-- A row that is repeated shows octets, or that it is. -/
theorem shows_repeats (position repeated : Nat) :
    ∀ line ∈ repeats position repeated, Shows line := by
  intro line hline
  rw [repeats] at hline
  by_cases hshown : repeatsShown < repeated
  · rw [if_pos hshown, List.mem_singleton] at hline
    have hfront : OneLine " | ... previous line repeated " := by decide
    have hback : OneLine " times" := by decide
    refine ⟨_, (oneLine_digits 8 position).append
      ((hfront.append (plain_toString (repeated - repeatsShown)).1).append hback), ?_⟩
    rw [hline, String.append_assoc]
    rfl
  · rw [if_neg hshown] at hline
    cases hline

/-- **The rows of a range** show octets. -/
theorem shows_rowsFrom (stop position : Nat) (previous : Bytes) (repeated : Nat)
    (chunks : List Bytes) :
    ∀ line ∈ rowsFrom stop position previous repeated chunks, Shows line := by
  induction chunks generalizing position previous repeated with
  | nil => exact shows_repeats stop repeated
  | cons bs rest ih =>
      intro line hline
      rw [rowsFrom] at hline
      by_cases hsame : bs.length = rowWidth ∧ bs = previous
      · rw [if_pos hsame] at hline
        by_cases hshown : repeatsShown < repeated + 1
        · rw [if_pos hshown] at hline
          exact ih _ _ _ line hline
        · rw [if_neg hshown] at hline
          rcases List.mem_cons.mp hline with rfl | hline
          · exact shows_row position bs
          · exact ih _ _ _ line hline
      · rw [if_neg hsame] at hline
        rcases List.mem_append.mp hline with hline | hline
        · exact shows_repeats _ _ line hline
        · rcases List.mem_cons.mp hline with rfl | hline
          · exact shows_row position bs
          · exact ih _ _ _ line hline

/-! ## (3) Lines -/

/-- **A fine line** is one line, and points out no error. -/
def Fine (line : String) : Prop := OneLine line ∧ ¬ IsError line.toList

/-- A line that shows octets is fine. -/
theorem Shows.fine {line : String} (h : Shows line) : Fine line := by
  obtain ⟨rest, hrest, rfl⟩ := h
  have htab : OneLine "\t " := by decide
  refine ⟨htab.append hrest, ?_⟩
  rintro ⟨more, herror⟩
  rw [String.toList_append] at herror
  exact absurd (List.cons.inj herror).1 (by decide)

/-- **A plain line** has not the letters of an error. -/
theorem fine_of_plain {line : String} (h : Plain line) : Fine line :=
  ⟨h.1, fun herror => h.2 (herror.subset (by decide))⟩

/-- **The dump of ranges that tile** a part of the buffer has fine lines only. -/
theorem fine_lines {buffer : Bytes} {position stop : Nat} {ranges : List (ByteRange × String)}
    (htile : ByteRange.Tile position stop (ranges.map Prod.fst)) (hstop : stop ≤ buffer.length)
    (hplain : ∀ range ∈ ranges, Plain range.2) :
    ∀ line ∈ lines buffer position ranges, Fine line := by
  induction ranges generalizing position with
  | nil => exact fun line hline => nomatch hline
  | cons r rest ih =>
      obtain ⟨range, name⟩ := r
      obtain ⟨hstart, hle, htile⟩ := htile
      dsimp only at hstart hle htile
      have hrest := ih htile fun r hr => hplain r (List.mem_cons_of_mem _ hr)
      have hname : Plain name := hplain _ List.mem_cons_self
      intro line hline
      rw [lines] at hline
      -- an empty range prints nothing; any other begins where the last one ended, inside of the
      -- buffer
      by_cases hempty : range.stop ≤ range.start
      · -- an empty range ends where the one before it does
        have hposition : position = range.stop := by omega
        rw [if_pos hempty, hposition] at hline
        exact hrest line hline
      · have hend : range.start + range.length = range.stop := by
          rw [ByteRange.length]
          omega
        have hslice : buffer.slice? range.start range.length =
            some ((buffer.drop range.start).take range.length) := by
          rw [Bytes.slice?, if_pos]
          have hlast := htile.le
          omega
        rw [if_neg hempty] at hline
        dsimp only at hline
        rw [if_neg (by omega), if_neg (by omega), hslice, List.nil_append, List.nil_append] at hline
        rcases List.mem_cons.mp hline with rfl | hline
        · have hdash : Plain "- " := by decide
          have hopen : Plain " (" := by decide
          have hclose : Plain " bytes):" := by decide
          exact fine_of_plain
            ((((hdash.append hname).append hopen).append (plain_toString range.length)).append
              hclose)
        · rcases List.mem_append.mp hline with hline | hline
          · exact (shows_rowsFrom _ _ _ _ _ line hline).fine
          · exact hrest line hline

/-- **The lines of a text** are those that it was made of, and nothing behind the last. -/
theorem splitOn_join {lines : List String} (h : ∀ line ∈ lines, OneLine line) :
    (String.join (lines.map (· ++ "\n"))).toList.splitOn '\n' = lines.map String.toList ++
      [[]] := by
  induction lines with
  | nil => rfl
  | cons line rest ih =>
      have hline := h line List.mem_cons_self
      rw [List.map_cons, String.join_cons, String.toList_append, String.toList_append,
        List.append_assoc, List.map_cons, List.cons_append,
        ← ih fun l hl => h l (List.mem_cons_of_mem _ hl)]
      exact List.splitOn_append_cons_self_of_not_mem hline _

end Hexdump

/-- **A dump of ranges that tile** the front of a buffer has no line that points out an error. -/
theorem Annotations.Continues.hexdump {a : Annotations} {buffer : Bytes} {stop : Nat}
    (h : ({} : Annotations).Continues a 0 stop) (hstop : stop ≤ buffer.length) :
    ∀ line ∈ (a.hexdump buffer).toList.splitOn '\n', ¬ Hexdump.IsError line := by
  obtain ⟨more, hranges, htile, hplain⟩ := h.ranges
  rw [List.nil_append] at hranges
  rw [← hranges] at htile hplain
  have hfine := Hexdump.fine_lines htile hstop hplain
  intro line hline
  rw [Annotations.hexdump, Hexdump.splitOn_join fun line hline => (hfine line hline).1] at hline
  rcases List.mem_append.mp hline with hline | hline
  · obtain ⟨l, hl, rfl⟩ := List.mem_map.mp hline
    exact (hfine l hl).2
  · rw [List.mem_singleton.mp hline]
    rintro ⟨rest, herror⟩
    cases herror

end ColumnFile
