import ColumnFile.Proofs.Layout.Dump
import Mathlib.Data.List.Chain

/-! # What a dump points out

A dump passes over empty ranges and compares each of the others with the end of the one before it,
the first with the front of the buffer. In the order of their starts, that finds every two that
share an octet; and it finds every octet in front of one of them that lies in none.

* **`Hexdump.IsGap`**, **`Hexdump.IsOverlap`** — the lines that point out octets without a name and
  a range that begins too early.
* **`Hexdump.exists_flag_iff`** — a line of a kind is written exactly when some range does not
  follow the one before it as it should.
* **`ByteRange.clears_iff_disjoint`** — ranges that end before the next begins are those that share
  no octet.
* **`ByteRange.covered_of_reaches`**, **`ByteRange.exists_uncovered`** — ranges that reach the next
  one leave no octet out; behind one that does not, an octet is left out, unless an earlier range
  covers it.
* **`Annotations.hexdump_flags`** — the dump of named ranges in the order of their starts. -/

namespace ColumnFile

/-! ## (1) Ranges one behind the other -/

namespace ByteRange

/-- **A range covers** an octet. -/
def Covers (r : ByteRange) (octet : Nat) : Prop := r.start ≤ octet ∧ octet < r.stop

/-- It can be decided whether a range covers an octet. -/
instance (r : ByteRange) (octet : Nat) : Decidable (r.Covers octet) :=
  inferInstanceAs (Decidable (r.start ≤ octet ∧ octet < r.stop))

/-- A range **reaches** the next: no octet lies between them. -/
def Reaches (r next : ByteRange) : Prop := next.start ≤ r.stop

/-- A range **clears** the next, which covers an octet: it ends before that begins. -/
def Clears (r next : ByteRange) : Prop := r.stop ≤ next.start ∧ next.start < next.stop

/-- A range that clears the next clears all that this one clears. -/
instance : Trans Clears Clears Clears where
  trans := fun ⟨hqr, hr⟩ ⟨hrs, hs⟩ => ⟨Nat.le_trans hqr (Nat.le_trans (Nat.le_of_lt hr) hrs), hs⟩

/-- The ranges that **cover an octet** at all, in order. -/
def occupied (ranges : List (ByteRange × String)) : List ByteRange :=
  (ranges.map Prod.fst).filter fun r => r.start < r.stop

/-- **A range recedes** when it begins behind the end of the one before it, but not behind that of
an earlier one. -/
def Receding (ranges : List ByteRange) : Prop :=
  ∃ front q r back, ranges = front ++ q :: r :: back ∧ q.stop < r.start ∧
    ∃ s ∈ front, r.start ≤ s.stop

variable {p : ByteRange} {ranges : List ByteRange} {named : List (ByteRange × String)}

/-- A range is occupied when it is named and not empty. -/
theorem mem_occupied {r : ByteRange} : r ∈ occupied named ↔ r ∈ named.map Prod.fst ∧
    r.start < r.stop := by
  rw [occupied, List.mem_filter, decide_eq_true_eq]

/-- An octet that is covered is covered by a range that is not empty. -/
theorem exists_covers_occupied {octet : Nat} :
    (∃ r ∈ occupied named, r.Covers octet) ↔ ∃ r ∈ named, r.1.Covers octet := by
  constructor
  · rintro ⟨r, hr, hcovers⟩
    obtain ⟨n, hn, rfl⟩ := List.mem_map.mp (mem_occupied.mp hr).1
    exact ⟨n, hn, hcovers⟩
  · rintro ⟨n, hn, hcovers⟩
    exact ⟨n.1, mem_occupied.mpr ⟨List.mem_map_of_mem hn, Nat.lt_of_le_of_lt hcovers.1 hcovers.2⟩,
      hcovers⟩

/-- **Ranges that clear one another** in the order of their starts are those of which no two share
an octet. -/
theorem clears_iff_disjoint (hsorted : named.Pairwise fun q r => q.1.start ≤ r.1.start) :
    (occupied named).IsChain Clears ↔
      ¬ ∃ q r octet, [q, r].Sublist named ∧ q.1.Covers octet ∧ r.1.Covers octet := by
  rw [List.isChain_iff_pairwise, occupied, List.pairwise_filter, List.pairwise_map,
    List.pairwise_iff_forall_sublist]
  simp only [decide_eq_true_eq]
  rw [List.pairwise_iff_forall_sublist] at hsorted
  constructor
  · rintro hclears ⟨q, r, octet, hsub, ⟨hq, hq'⟩, hr, hr'⟩
    have hclear := (hclears hsub (by omega) (by omega)).1
    omega
  · intro hdisjoint q r hsub hq hr
    refine ⟨Nat.le_of_not_lt fun hlt => hdisjoint ?_, hr⟩
    -- of two that do not clear, the later one's first octet is in both
    exact ⟨q, r, r.1.start, hsub, ⟨hsorted hsub, hlt⟩, Nat.le_refl _, hr⟩

/-- **Ranges that reach one another** from a position on cover every octet from there up to the end
of any. -/
theorem covered_of_reaches (h : (p :: ranges).IsChain Reaches) {octet : Nat}
    (hfrom : p.stop ≤ octet) {s : ByteRange} (hs : s ∈ ranges) (hto : octet < s.stop) :
    ∃ r ∈ ranges, r.Covers octet := by
  induction ranges generalizing p with
  | nil => cases hs
  | cons r rest ih =>
      obtain ⟨hreaches, hrest⟩ := List.isChain_cons_cons.mp h
      -- the octet is in the first range, or else that reaches the next one no earlier than the
      -- octet
      by_cases hr : octet < r.stop
      · exact ⟨r, List.mem_cons_self, Nat.le_trans hreaches hfrom, hr⟩
      · rcases List.mem_cons.mp hs with rfl | hs
        · exact absurd hto hr
        · obtain ⟨t, ht, hcovers⟩ := ih hrest (Nat.le_of_not_lt hr) hs
          exact ⟨t, List.mem_cons_of_mem r ht, hcovers⟩

/-- **Where a range does not reach the next** of those in the order of their starts, the octet
before that is left out, or else the next one recedes. -/
theorem exists_uncovered (hsorted : ranges.Pairwise fun q r => q.start ≤ r.start)
    (h : ¬ ranges.IsChain Reaches) (hsteady : ¬ Receding ranges) :
    ∃ octet, (∃ r ∈ ranges, octet < r.start) ∧ ∀ r ∈ ranges, ¬ r.Covers octet := by
  rw [List.isChain_iff_forall_rel_of_append_cons_cons] at h
  push Not at h
  obtain ⟨q, r, front, back, rfl, hbehind⟩ := h
  have hbehind : q.stop < r.start := Nat.lt_of_not_le hbehind
  -- the octet in front of the range that was not reached is in none of those that begin later
  refine ⟨r.start - 1, ⟨r, by simp, by omega⟩, ?_⟩
  obtain ⟨-, hrest, -⟩ := List.pairwise_append.mp hsorted
  obtain ⟨-, hrest⟩ := List.pairwise_cons.mp hrest
  obtain ⟨hback, -⟩ := List.pairwise_cons.mp hrest
  rintro s hs ⟨hfrom, hto⟩
  rcases List.mem_append.mp hs with hfront | hs
  · -- a range further in front that covers it is one from which the next one recedes
    exact hsteady ⟨front, q, r, back, rfl, hbehind, s, hfront, by omega⟩
  · rcases List.mem_cons.mp hs with rfl | hs
    · omega
    · rcases List.mem_cons.mp hs with rfl | hs
      · omega
      · have hlater := hback s hs
        omega

/-- **Ranges whose ends are in order** do not recede: none ends before an earlier one does. -/
theorem not_receding_of_stops (h : ranges.Pairwise fun q r => q.stop ≤ r.stop) :
    ¬ Receding ranges := by
  rintro ⟨front, q, r, back, rfl, hbehind, s, hs, hwithin⟩
  have hends := (List.pairwise_append.mp h).2.2 s hs q List.mem_cons_self
  omega

/-- No range recedes from the front of the buffer. -/
theorem Receding.of_cons (h : Receding (⟨0, 0⟩ :: ranges)) : Receding ranges := by
  obtain ⟨front, q, r, back, heq, hbehind, s, hs, hwithin⟩ := h
  cases front with
  | nil => cases hs
  | cons f front =>
      obtain ⟨rfl, rfl⟩ := List.cons.inj heq
      rcases List.mem_cons.mp hs with rfl | hs
      · dsimp only at hwithin
        omega
      · exact ⟨front, q, r, back, rfl, hbehind, s, hs, hwithin⟩

end ByteRange

/-! ## (2) Lines -/

namespace Hexdump

open ByteRange

/-- The line that points out **octets without a name**. -/
def gapLine (count : Nat) : String := s!"- ERROR: unannotated ({count} bytes)"

/-- The line that points out **a range that begins too early**. -/
def overlapLine (name : String) : String := s!"- ERROR: {name} overlaps previous range"

/-- A line that points out octets without a name. -/
def IsGap (line : String) : Prop := ∃ count, line = gapLine count

/-- A line that points out a range that begins too early. -/
def IsOverlap (line : String) : Prop := ∃ name, line = overlapLine name

/-- The line that **names a range**. -/
def headerLine (range : ByteRange) (name : String) : String := s!"- {name} ({range.length} bytes):"

/-- The line in place of the rows of a range that **ends behind the buffer**. -/
def pastLine (name : String) : String := s!"- ERROR: {name} past end of buffer"

/-- What is pointed out about a range that is not empty, the octets before `position` having been
shown. -/
def complaints (position : Nat) (range : ByteRange) (name : String) : List String :=
  (if range.start < position then [overlapLine name] else []) ++
    if position < range.start then [gapLine (range.start - position)] else []

/-- The rows of a range, or the line in their place. -/
def body (buffer : Bytes) (range : ByteRange) (name : String) : List String :=
  match buffer.slice? range.start range.length with
  | some bs => rows range bs
  | none => [pastLine name]

variable {buffer : Bytes} {position : Nat} {range : ByteRange} {name : String}
  {rest ranges : List (ByteRange × String)} {line : String}

/-- Nothing is said of an empty range. -/
theorem lines_cons_of_empty (h : ¬ range.start < range.stop) :
    lines buffer position ((range, name) :: rest) = lines buffer position rest := by
  rw [lines, if_pos (Nat.le_of_not_lt h)]

/-- What is said of a range, before what is said of those behind it. -/
theorem lines_cons_of_occupied (h : range.start < range.stop) :
    lines buffer position ((range, name) :: rest) =
      complaints position range name ++ headerLine range name :: body buffer range name ++
        lines buffer range.stop rest := by
  rw [lines, if_neg (Nat.not_le.mpr h)]
  rfl

/-! Lines of two kinds differ in how they begin or in how they end, whatever the names are. -/

/-- A text **ends in** a character. -/
def EndsIn (c : Char) (s : String) : Prop := s.toList.getLast? = some c

/-- A text ends as its last part ends. -/
theorem EndsIn.append {c : Char} {t : String} (h : EndsIn c t) (s : String) :
    EndsIn c (s ++ t) := by
  rw [EndsIn, String.toList_append, List.getLast?_append, h, Option.some_or]

/-- A text has one end. -/
theorem EndsIn.unique {c d : Char} {s : String} (hc : EndsIn c s) (hd : EndsIn d s) : c = d :=
  Option.some.inj (hc.symm.trans hd)

/-- A gap is told with a bracket at the end. -/
theorem endsIn_gapLine (count : Nat) : EndsIn ')' (gapLine count) := by
  have hclose : EndsIn ')' " bytes)" := rfl
  exact hclose.append _

/-- An overlap is told with an `e` at the end. -/
theorem endsIn_overlapLine (name : String) : EndsIn 'e' (overlapLine name) := by
  have hclose : EndsIn 'e' " overlaps previous range" := rfl
  exact hclose.append _

/-- A header ends with a colon. -/
theorem endsIn_headerLine (range : ByteRange) (name : String) :
    EndsIn ':' (headerLine range name) := by
  have hclose : EndsIn ':' " bytes):" := rfl
  exact hclose.append _

/-- A range past the end is told with an `r` at the end. -/
theorem endsIn_pastLine (name : String) : EndsIn 'r' (pastLine name) := by
  have hclose : EndsIn 'r' " past end of buffer" := rfl
  exact hclose.append _

/-- A line that tells a gap ends as such. -/
theorem IsGap.endsIn (h : IsGap line) : EndsIn ')' line := by
  obtain ⟨count, rfl⟩ := h
  exact endsIn_gapLine count

/-- A line that tells an overlap ends as such. -/
theorem IsOverlap.endsIn (h : IsOverlap line) : EndsIn 'e' line := by
  obtain ⟨name, rfl⟩ := h
  exact endsIn_overlapLine name

/-- A gap is an error. -/
theorem IsGap.isError (h : IsGap line) : IsError line.toList := by
  obtain ⟨count, rfl⟩ := h
  refine ⟨(": unannotated (" ++ toString count ++ " bytes)").toList, ?_⟩
  rw [← String.toList_append, ← String.append_assoc, ← String.append_assoc]
  rfl

/-- An overlap is an error. -/
theorem IsOverlap.isError (h : IsOverlap line) : IsError line.toList := by
  obtain ⟨name, rfl⟩ := h
  refine ⟨(": " ++ name ++ " overlaps previous range").toList, ?_⟩
  rw [← String.toList_append, ← String.append_assoc, ← String.append_assoc]
  rfl

/-- **A kind of lines is told** from those that are written for a range whatever lies before it: its
lines point out an error, and end otherwise. -/
structure Tells (Flag : String → Prop) : Prop where
  /-- A line of the kind points out an error. -/
  isError : ∀ line, Flag line → IsError line.toList
  /-- It names no range. -/
  not_header : ∀ range name, ¬ Flag (headerLine range name)
  /-- It does not stand in place of rows. -/
  not_past : ∀ name, ¬ Flag (pastLine name)

/-- What is asked of lines that tell gaps. -/
theorem tells_gap : Tells IsGap where
  isError _ := IsGap.isError
  not_header range name h := absurd (h.endsIn.unique (endsIn_headerLine range name)) (by decide)
  not_past name h := absurd (h.endsIn.unique (endsIn_pastLine name)) (by decide)

/-- What is asked of lines that tell overlaps. -/
theorem tells_overlap : Tells IsOverlap where
  isError _ := IsOverlap.isError
  not_header range name h := absurd (h.endsIn.unique (endsIn_headerLine range name)) (by decide)
  not_past name h := absurd (h.endsIn.unique (endsIn_pastLine name)) (by decide)

/-- **A gap is told** when a range begins behind the place that was reached. -/
theorem gap_mem_complaints :
    (∃ line ∈ complaints position range name, IsGap line) ↔ position < range.start := by
  constructor
  · rintro ⟨line, hline, hgap⟩
    by_contra hreached
    rw [complaints, if_neg hreached, List.append_nil] at hline
    split at hline
    · rw [List.mem_singleton.mp hline] at hgap
      exact absurd (hgap.endsIn.unique (endsIn_overlapLine name)) (by decide)
    · cases hline
  · intro hbehind
    refine ⟨gapLine (range.start - position), List.mem_append_right _ ?_, _, rfl⟩
    rw [if_pos hbehind]
    exact List.mem_singleton_self _

/-- **An overlap is told** when a range begins before the place that was reached. -/
theorem overlap_mem_complaints :
    (∃ line ∈ complaints position range name, IsOverlap line) ↔ range.start < position := by
  constructor
  · rintro ⟨line, hline, hoverlap⟩
    by_contra hclear
    rw [complaints, if_neg hclear, List.nil_append] at hline
    split at hline
    · rw [List.mem_singleton.mp hline] at hoverlap
      exact absurd (hoverlap.endsIn.unique (endsIn_gapLine _)) (by decide)
    · cases hline
  · intro hearly
    refine ⟨overlapLine name, List.mem_append_left _ ?_, _, rfl⟩
    rw [if_pos hearly]
    exact List.mem_singleton_self _

/-- The rows of a range, and the line in their place, point out neither. -/
theorem Tells.notMem_body {Flag : String → Prop} (h : Tells Flag) :
    ∀ line ∈ body buffer range name, ¬ Flag line := by
  intro line hline
  rw [body] at hline
  split at hline
  · intro hflag
    exact (shows_rowsFrom _ _ _ _ _ line hline).fine.2 (h.isError line hflag)
  · rw [List.mem_singleton.mp hline]
    exact h.not_past name

/-- **A line of a kind is written** exactly when some range does not follow the one before it as it
should: `p` stands for the range whose end is known at the front. By induction on the ranges, the
empty ones being passed over. -/
theorem exists_flag_iff {Flag : String → Prop} {R : ByteRange → ByteRange → Prop}
    (htells : Tells Flag) (hflag : ∀ (p range : ByteRange) (name : String),
      range.start < range.stop →
      ((∃ line ∈ complaints p.stop range name, Flag line) ↔ ¬ R p range)) (p : ByteRange) :
    (∃ line ∈ lines buffer p.stop ranges, Flag line) ↔ ¬ (p :: occupied ranges).IsChain R := by
  -- from range to range; the flags of one depend only on where the one before it stopped
  induction ranges generalizing p with
  | nil =>
      refine iff_of_false ?_ (not_not.mpr (List.isChain_singleton p))
      rintro ⟨line, hline, -⟩
      cases hline
  | cons r rest ih =>
      obtain ⟨range, name⟩ := r
      -- empty ranges are passed over
      by_cases hoccupied : range.start < range.stop
      · have hhead : occupied ((range, name) :: rest) = range :: occupied rest := by
          rw [occupied, List.map_cons, List.filter_cons_of_pos (by simpa using hoccupied)]
          rfl
        rw [lines_cons_of_occupied hoccupied, hhead, List.isChain_cons_cons, not_and_or, ← ih range,
          ← hflag p range name hoccupied]
        -- the header and the rows of a range are no flags
        constructor
        · rintro ⟨line, hline, hkind⟩
          rcases List.mem_append.mp hline with hline | hline
          · rcases List.mem_append.mp hline with hline | hline
            · exact .inl ⟨line, hline, hkind⟩
            · rcases List.mem_cons.mp hline with rfl | hline
              · exact absurd hkind (htells.not_header range name)
              · exact absurd hkind (htells.notMem_body line hline)
          · exact .inr ⟨line, hline, hkind⟩
        · rintro (⟨line, hline, hkind⟩ | ⟨line, hline, hkind⟩)
          · exact ⟨line, List.mem_append_left _ (List.mem_append_left _ hline), hkind⟩
          · exact ⟨line, List.mem_append_right _ hline, hkind⟩
      · have hhead : occupied ((range, name) :: rest) = occupied rest := by
          rw [occupied, List.map_cons, List.filter_cons_of_neg (by simpa using hoccupied)]
          rfl
        rw [lines_cons_of_empty hoccupied, hhead]
        exact ih p

/-! Names without ends of lines make one line of each. -/

/-- Complaints about a range are lines each. -/
theorem oneLine_complaints (h : OneLine name) :
    ∀ line ∈ complaints position range name, OneLine line := by
  have herror : OneLine "- ERROR: " := by decide
  have hoverlap : OneLine " overlaps previous range" := by decide
  have hgap : OneLine "- ERROR: unannotated (" := by decide
  have hclose : OneLine " bytes)" := by decide
  intro line hline
  rw [complaints] at hline
  rcases List.mem_append.mp hline with hline | hline
  · split at hline
    · rw [List.mem_singleton.mp hline]
      exact (herror.append h).append hoverlap
    · cases hline
  · split at hline
    · rw [List.mem_singleton.mp hline]
      exact (hgap.append (plain_toString (range.start - position)).1).append hclose
    · cases hline

/-- A header is a line. -/
theorem oneLine_headerLine (h : OneLine name) : OneLine (headerLine range name) := by
  have hdash : OneLine "- " := by decide
  have hopen : OneLine " (" := by decide
  have hclose : OneLine " bytes):" := by decide
  exact (((hdash.append h).append hopen).append (plain_toString range.length).1).append hclose

/-- The octets of a range are shown in lines. -/
theorem oneLine_body (h : OneLine name) : ∀ line ∈ body buffer range name, OneLine line := by
  intro line hline
  rw [body] at hline
  split at hline
  · exact (shows_rowsFrom _ _ _ _ _ line hline).fine.1
  · have herror : OneLine "- ERROR: " := by decide
    have hpast : OneLine " past end of buffer" := by decide
    rw [List.mem_singleton.mp hline]
    exact (herror.append h).append hpast

/-- All of a dump is lines. -/
theorem oneLine_lines (h : ∀ r ∈ ranges, OneLine r.2) :
    ∀ line ∈ lines buffer position ranges, OneLine line := by
  induction ranges generalizing position with
  | nil => exact fun line hline => nomatch hline
  | cons r rest ih =>
      obtain ⟨range, name⟩ := r
      have hname : OneLine name := h _ List.mem_cons_self
      have hrest := fun r hr => h r (List.mem_cons_of_mem _ hr)
      intro line hline
      by_cases hoccupied : range.start < range.stop
      · rw [lines_cons_of_occupied hoccupied] at hline
        rcases List.mem_append.mp hline with hline | hline
        · rcases List.mem_append.mp hline with hline | hline
          · exact oneLine_complaints hname line hline
          · rcases List.mem_cons.mp hline with rfl | hline
            · exact oneLine_headerLine hname
            · exact oneLine_body hname line hline
        · exact ih hrest line hline
      · rw [lines_cons_of_empty hoccupied] at hline
        exact ih hrest line hline

end Hexdump

/-! ## (3) Dumps -/

namespace Annotations

open ByteRange Hexdump

variable {a : Annotations} {buffer : Bytes}

/-- A dump **prints** a line of a kind. -/
def Prints (a : Annotations) (buffer : Bytes) (Kind : String → Prop) : Prop :=
  ∃ line ∈ Hexdump.lines buffer 0 a.ranges, Kind line

/-- The ranges stand **in the order of their starts**. -/
def Sorted (a : Annotations) : Prop := a.ranges.Pairwise fun q r => q.1.start ≤ r.1.start

/-- It can be decided whether annotations are sorted. -/
instance (a : Annotations) : Decidable a.Sorted :=
  inferInstanceAs (Decidable (a.ranges.Pairwise fun q r => q.1.start ≤ r.1.start))

/-- **Two ranges share an octet**; neither of them is empty then. -/
def Overlapping (a : Annotations) : Prop :=
  ∃ q r octet, [q, r].Sublist a.ranges ∧ q.1.Covers octet ∧ r.1.Covers octet

/-- **An octet is left out**: it lies before the end of a range that is not empty, and in none. -/
def LeavesOut (a : Annotations) : Prop :=
  ∃ octet, (∃ r ∈ a.ranges, r.1.start < r.1.stop ∧ octet < r.1.stop) ∧
    ∀ r ∈ a.ranges, ¬ r.1.Covers octet

/-- **The text of a dump** whose names have no ends of lines has the lines that are printed. -/
theorem prints_iff_text {Kind : String → Prop} (hnames : ∀ r ∈ a.ranges, OneLine r.2)
    (hkind : ¬ Kind "") :
    a.Prints buffer Kind ↔ ∃ line, line.toList ∈ (a.hexdump buffer).toList.splitOn '\n' ∧
    Kind line := by
  rw [Annotations.hexdump, splitOn_join (oneLine_lines hnames)]
  constructor
  · rintro ⟨line, hline, h⟩
    exact ⟨line, List.mem_append_left _ (List.mem_map_of_mem hline), h⟩
  · rintro ⟨line, hline, h⟩
    rcases List.mem_append.mp hline with hline | hline
    · obtain ⟨l, hl, heq⟩ := List.mem_map.mp hline
      rw [String.toList_inj.mp heq] at hl
      exact ⟨line, hl, h⟩
    · have hempty : line = "" := String.toList_inj.mp (List.mem_singleton.mp hline)
      rw [hempty] at h
      exact absurd h hkind

/-- Whether an overlap is printed. -/
theorem prints_overlap_iff (hsorted : a.Sorted) : a.Prints buffer IsOverlap ↔ a.Overlapping := by
  have hflag : ∀ (p range : ByteRange) (name : String), range.start < range.stop →
      ((∃ line ∈ complaints p.stop range name, IsOverlap line) ↔ ¬ Clears p range) := by
    intro p range name hoccupied
    rw [overlap_mem_complaints, Clears, not_and_or, Nat.not_le]
    exact ⟨.inl, fun h => h.resolve_right (not_not.mpr hoccupied)⟩
  have hprints : a.Prints buffer IsOverlap ↔ ¬ (⟨0, 0⟩ :: occupied a.ranges).IsChain Clears :=
    exists_flag_iff tells_overlap hflag ⟨0, 0⟩
  -- every range clears the front of the buffer
  have hfront : (⟨0, 0⟩ :: occupied a.ranges).IsChain Clears ↔
    (occupied a.ranges).IsChain Clears := by
    cases hoccupied : occupied a.ranges with
    | nil => exact iff_of_true (List.isChain_singleton _) List.isChain_nil
    | cons r rest =>
        have hr : r ∈ occupied a.ranges := hoccupied ▸ List.mem_cons_self
        rw [List.isChain_cons_cons]
        exact and_iff_right ⟨Nat.zero_le _, (mem_occupied.mp hr).2⟩
  rw [hfront, clears_iff_disjoint hsorted, not_not] at hprints
  exact hprints

/-- Whether octets without a name are printed. -/
theorem prints_gap_iff : a.Prints buffer IsGap ↔
    ¬ (⟨0, 0⟩ :: occupied a.ranges).IsChain Reaches := by
  have hflag : ∀ (p range : ByteRange) (name : String), range.start < range.stop →
      ((∃ line ∈ complaints p.stop range name, IsGap line) ↔ ¬ Reaches p range) := by
    intro p range name _
    rw [gap_mem_complaints, Reaches, Nat.not_le]
  exact exists_flag_iff tells_gap hflag ⟨0, 0⟩

/-- **What a dump points out** of ranges in the order of their starts, whatever the buffer: an
overlap exactly when two ranges share an octet; octets without a name whenever an octet is left out;
and, unless a range recedes, only then. An empty range is passed over, so an octet in front of it
alone is not left out. -/
theorem hexdump_flags (hsorted : a.Sorted) (buffer : Bytes) :
    (a.Prints buffer IsOverlap ↔ a.Overlapping) ∧
      (a.LeavesOut → a.Prints buffer IsGap) ∧
      (¬ Receding (occupied a.ranges) → a.Prints buffer IsGap → a.LeavesOut) := by
  refine ⟨prints_overlap_iff hsorted, ?_, ?_⟩
  · rintro ⟨octet, ⟨r, hr, hoccupied, hto⟩, hout⟩
    rw [prints_gap_iff]
    intro hreaches
    have hmem : r.1 ∈ occupied a.ranges := mem_occupied.mpr ⟨List.mem_map_of_mem hr, hoccupied⟩
    obtain ⟨s, hs, hcovers⟩ :=
      exists_covers_occupied.mp (covered_of_reaches hreaches (Nat.zero_le octet) hmem hto)
    exact hout s hs hcovers
  · intro hsteady hprints
    have hstarts : (⟨0, 0⟩ :: occupied a.ranges).Pairwise fun q r => q.start ≤ r.start := by
      have hall : (a.ranges.map Prod.fst).Pairwise fun q r => q.start ≤ r.start :=
        List.pairwise_map.mpr hsorted
      exact List.pairwise_cons.mpr
        ⟨fun r _ => Nat.zero_le r.start, hall.sublist List.filter_sublist⟩
    obtain ⟨octet, ⟨r, hr, hbefore⟩, hout⟩ :=
      exists_uncovered hstarts (prints_gap_iff.mp hprints) fun h => hsteady h.of_cons
    rcases List.mem_cons.mp hr with rfl | hr
    · exact absurd hbefore (Nat.not_lt_zero octet)
    · obtain ⟨hmem, hoccupied⟩ := mem_occupied.mp hr
      obtain ⟨n, hn, rfl⟩ := List.mem_map.mp hmem
      refine ⟨octet, ⟨n, hn, hoccupied, Nat.lt_trans hbefore hoccupied⟩, fun s hs hcovers => ?_⟩
      obtain ⟨t, ht, hcovers⟩ := exists_covers_occupied.mpr ⟨s, hs, hcovers⟩
      exact hout t (List.mem_cons_of_mem _ ht) hcovers

/-- Of ranges that leave octets 16 to 19 out and then overlap, both is pointed out. -/
theorem hexdump_flags_both :
    ∃ a : Annotations, a.ranges = [(⟨0, 16⟩, "outer.a"), (⟨20, 40⟩, "b"), (⟨30, 64⟩, "c")] ∧
    a.Sorted ∧
      ¬ Receding (occupied a.ranges) ∧ (a.Prints [] IsOverlap ∧ a.Overlapping) ∧
      (a.Prints [] IsGap ∧ a.LeavesOut) := by
  let a : Annotations := { ranges := [(⟨0, 16⟩, "outer.a"), (⟨20, 40⟩, "b"), (⟨30, 64⟩, "c")] }
  have hsorted : a.Sorted := by decide
  have hsteady : ¬ Receding (occupied a.ranges) := not_receding_of_stops (by decide)
  obtain ⟨hoverlap, hgap, -⟩ := hexdump_flags hsorted []
  have hshared : a.Overlapping :=
    ⟨(⟨20, 40⟩, "b"), (⟨30, 64⟩, "c"), 30, by decide, by decide, by decide⟩
  have hout : a.LeavesOut := by
    refine ⟨16, ⟨(⟨20, 40⟩, "b"), by decide, by decide, by decide⟩, ?_⟩
    decide
  exact ⟨a, rfl, hsorted, hsteady, ⟨hoverlap.mpr hshared, hshared⟩, hgap hout, hout⟩

/-- **An empty range behind octets without a name**: they lie before the end of the range and in
none, and yet nothing is pointed out, since empty ranges are passed over. -/
theorem not_gap_of_empty_range :
    ¬ ∀ (a : Annotations) (buffer : Bytes), a.Sorted → (∀ r ∈ a.ranges, r.1.stop ≤ buffer.length) →
      (a.Prints buffer IsGap ↔
        ∃ octet, (∃ r ∈ a.ranges, octet < r.1.stop) ∧ ∀ r ∈ a.ranges, ¬ r.1.Covers octet) ∧
      (a.Prints buffer IsOverlap ↔ a.Overlapping) := by
  intro hclaim
  let a : Annotations := { ranges := [(⟨5, 5⟩, "end")] }
  obtain ⟨hgap, -⟩ := hclaim a (List.replicate 5 0) (by decide) (by decide)
  have hprints : a.Prints (List.replicate 5 0) IsGap := by
    refine hgap.mpr ⟨0, ⟨_, List.mem_singleton_self _, by decide⟩, ?_⟩
    intro r hr
    rw [List.mem_singleton.mp hr]
    decide
  obtain ⟨line, hline, -⟩ := hprints
  cases hline

end Annotations

end ColumnFile
