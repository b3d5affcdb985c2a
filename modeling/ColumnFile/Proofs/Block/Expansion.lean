import ColumnFile.Library
import ColumnFile.Proofs.Codec
import ColumnFile.Proofs.Codec.Machine

/-! # Expansion is exact or commits nothing

A decompressor works on the memory behind what a buffer has committed. It can leave anything there;
what it left is committed only when it reports the length that was asked for.

* **`BlockCompressor.InPlace`** — a decompressor writes in its slice and nowhere else.
* **`BlockCompressor.decompressInto_error`**, **`BlockCompressor.decompressInto_ok`** — a buffer
  after a failed and after a successful expansion.
* **`Codec.decodeBytes_exact`**, **`Machine.decodeBytes_exact`** — a compressed stream gives as many
  octets as were asked for.
* **`BlockCompressor.expansion_exact`** — all of it, for every buffer and every compressor. -/

namespace ColumnFile

namespace BlockCompressor

/-! ## (1) Slices -/

/-- A decompressor that writes **in place**: its slice is as long as it was, whatever is in it, and
it counts no more octets than that, if it counts them at all. -/
structure InPlace (c : BlockCompressor) : Prop where
  length_slice : ∀ dst src, (c.decompress dst src).2.length = dst.length
  count_le : ∀ dst src n, (c.decompress dst src).1 = .ok n → n ≤ dst.length

/-- Putting a string in a slice keeps the slice's length. -/
theorem fill_inPlace (tooSmall : Fault) (dst out : Bytes) :
    (fill tooSmall dst out).2.length = dst.length ∧
      ∀ n, (fill tooSmall dst out).1 = .ok n → n ≤ dst.length := by
  rw [fill]
  split
  · exact ⟨rfl, fun n h => by cases h⟩
  · rename_i hfits
    refine ⟨?_, ?_⟩
    · rw [List.length_append, List.length_drop]
      omega
    · intro n h
      cases h
      exact Nat.not_lt.mp hfits

/-- **A decompressor that fills** its slice, or leaves it alone when it fails, writes in place. -/
theorem inPlace_of_fills {c : BlockCompressor}
    (h : ∀ dst src, (∃ e, c.decompress dst src = (.error e, dst)) ∨
      ∃ tooSmall out, c.decompress dst src = fill tooSmall dst out) : c.InPlace := by
  refine ⟨fun dst src => ?_, fun dst src n hn => ?_⟩
  · rcases h dst src with ⟨e, hfailed⟩ | ⟨tooSmall, out, hfilled⟩
    · rw [hfailed]
    · rw [hfilled]
      exact (fill_inPlace tooSmall dst out).1
  · rcases h dst src with ⟨e, hfailed⟩ | ⟨tooSmall, out, hfilled⟩
    · rw [hfailed] at hn
      cases hn
    · rw [hfilled] at hn
      exact (fill_inPlace tooSmall dst out).2 n hn

/-- **The compressor of a format** writes in place. -/
theorem ofFormat_inPlace (name : String) (bound : Nat → Nat) (tooSmall : Option String)
    (encode : Bytes → Bytes) (decode : Nat → Bytes → Except (Option String) Bytes) :
    (ofFormat name bound tooSmall encode decode).InPlace := by
  refine inPlace_of_fills fun dst src => ?_
  cases hdecode : decode dst.length src with
  | error detail => exact .inl ⟨_, by simp only [ofFormat, hdecode]; rfl⟩
  | ok out => exact .inr ⟨_, out, by simp only [ofFormat, hdecode]; rfl⟩

/-! ## (2) Into a buffer -/

variable {c : BlockCompressor} {src : Bytes} {length : Nat} {out : Buffer}

/-- What a decompressor reports and leaves in the **slice** that it is given behind what a buffer
has committed. -/
def expanded (c : BlockCompressor) (src : Bytes) (length : Nat) (out : Buffer) :
    Except Fault Nat × Bytes :=
  c.decompress ((out.reserve length).tail.take length) src

/-- The slice is as long as was asked for. -/
theorem InPlace.length_expanded (hc : c.InPlace) (hout : out.Ordered) (src : Bytes) (length : Nat) :
    (c.expanded src length out).2.length = length := by
  obtain ⟨hused, -, -, hroom⟩ := hout.reserve length
  have hcapacity : out.used + length ≤ (out.reserve length).mem.length := hroom
  rw [expanded, hc.length_slice, Buffer.tail, List.length_take, List.length_drop, hused]
  omega

/-- The buffer **as the decompressor leaves it**, before anything is committed. -/
def scribbled (c : BlockCompressor) (src : Bytes) (length : Nat) (out : Buffer) : Buffer :=
  (out.reserve length).put (out.reserve length).used ((c.expanded src length out).2.take length)

/-- Whatever a decompressor leaves is behind what is committed, and there is room for what was asked
for. -/
theorem scribbled_spec (c : BlockCompressor) (src : Bytes) (length : Nat) (hout : out.Ordered) :
    (c.scribbled src length out).Ordered ∧ (c.scribbled src length out).used = out.used ∧
      (c.scribbled src length out).treated = out.treated ∧
      (c.scribbled src length out).committed = out.committed ∧
      out.used + length ≤ (c.scribbled src length out).capacity := by
  obtain ⟨hused, htreated, hcommitted, hroom⟩ := hout.reserve length
  have hgrown : (out.reserve length).Ordered := by
    refine ⟨?_, ?_⟩
    · rw [hused, htreated]
      exact hout.1
    · rw [hused]
      exact Nat.le_of_add_right_le hroom
  have hfits : (out.reserve length).used + ((c.expanded src length out).2.take length).length ≤
      (out.reserve length).capacity := by
    rw [hused]
    have hslice := List.length_take_le length (c.expanded src length out).2
    omega
  obtain ⟨hordered, hkept⟩ := hgrown.put hfits
  have hcapacity : (c.scribbled src length out).capacity = (out.reserve length).capacity :=
    (Buffer.overwrite_inside hfits).2
  exact ⟨hordered, hused, htreated, hkept.trans hcommitted, hcapacity ▸ hroom⟩

/-- The slice of a decompressor, once it is committed. -/
theorem InPlace.committed_scribbled (hc : c.InPlace) (hout : out.Ordered) :
    { c.scribbled src length out with
        used := (c.scribbled src length out).used + length }.committed =
      out.committed ++ (c.expanded src length out).2 := by
  obtain ⟨hused, -, hcommitted, hroom⟩ := hout.reserve length
  have hslice := hc.length_expanded hout src length
  have hfits : (out.reserve length).used + (c.expanded src length out).2.length ≤
      (out.reserve length).mem.length := by
    rw [hused, hslice]
    exact hroom
  have hwhole : (c.expanded src length out).2.take length = (c.expanded src length out).2 :=
    List.take_of_length_le (Nat.le_of_eq hslice)
  have hfront := (Buffer.overwrite_inside hfits).1
  rw [hslice] at hfront
  show ((out.reserve length).mem.overwrite (out.reserve length).used
    ((c.expanded src length out).2.take length)).take ((out.reserve length).used + length) = _
  rw [hwhole, hfront, ← hcommitted, Buffer.committed]

/-- **What an expansion does** goes by what the decompressor reports: anything but the length that
was asked for ends it, and then nothing is committed. -/
theorem decompressInto_cases (hout : out.Ordered) :
    ((c.expanded src length out).1 ≠ .ok length ∧
        ∃ e, c.decompressInto src length out = (.error e, c.scribbled src length out)) ∨
      ((c.expanded src length out).1 = .ok length ∧ c.decompressInto src length out =
        (.ok (), { c.scribbled src length out with used := (c.scribbled src length out).used +
                     length })) := by
  obtain ⟨-, hused, -, -, hroom⟩ := c.scribbled_spec src length hout
  have hcommit : (c.scribbled src length out).commit length =
      .ok { c.scribbled src length out with used := (c.scribbled src length out).used +
              length } := by
    rw [Buffer.commit, if_neg]
    rw [Buffer.available, hused]
    omega
  rw [decompressInto, expandInto]
  unfold scribbled expanded at hcommit ⊢
  generalize c.decompress ((out.reserve length).tail.take length) src = report at hcommit ⊢
  obtain ⟨result, slice⟩ := report
  dsimp only at hcommit ⊢
  cases result with
  | error e => exact .inl ⟨(fun heq => by cases heq), e, rfl⟩
  | ok n =>
      by_cases hn : n = length
      · refine .inr ⟨congrArg Except.ok hn, ?_⟩
        rw [hn]
        dsimp only
        rw [if_neg (not_not_intro rfl), hcommit]
      · exact .inl ⟨fun heq => hn (Except.ok.inj heq), _, if_pos hn⟩

/-- **A failed expansion** commits nothing and moves no cursor. -/
theorem decompressInto_error (hout : out.Ordered) {e : Fault}
    (h : (c.decompressInto src length out).1 = .error e) :
    (c.expanded src length out).1 ≠ .ok length ∧ (c.decompressInto src length out).2.Ordered ∧
      (c.decompressInto src length out).2.committed = out.committed ∧
      (c.decompressInto src length out).2.used = out.used ∧
      (c.decompressInto src length out).2.treated = out.treated := by
  obtain ⟨hordered, hused, htreated, hcommitted, -⟩ := c.scribbled_spec src length hout
  rcases decompressInto_cases hout with ⟨hreport, e', hfailed⟩ | ⟨-, hdone⟩
  · rw [hfailed]
    exact ⟨hreport, hordered, hcommitted, hused, htreated⟩
  · rw [hdone] at h
    cases h

/-- **A successful expansion** commits the slice of the decompressor behind what was committed, and
the slice has the length that was asked for. -/
theorem decompressInto_ok (hc : c.InPlace) (hout : out.Ordered)
    (h : (c.decompressInto src length out).1 = .ok ()) :
    (c.expanded src length out).1 = .ok length ∧ (c.expanded src length out).2.length = length ∧
      (c.decompressInto src length out).2.Ordered ∧
      (c.decompressInto src length out).2.committed =
        out.committed ++ (c.expanded src length out).2 ∧
      (c.decompressInto src length out).2.used = out.used + length ∧
      (c.decompressInto src length out).2.treated = out.treated := by
  obtain ⟨hordered, hused, htreated, -, hroom⟩ := c.scribbled_spec src length hout
  rcases decompressInto_cases hout with ⟨-, e', hfailed⟩ | ⟨hreport, hdone⟩
  · rw [hfailed] at h
    cases h
  · rw [hdone]
    refine ⟨hreport, hc.length_expanded hout src length, ⟨?_, ?_⟩, hc.committed_scribbled hout, ?_,
      htreated⟩
    · exact Nat.le_trans hordered.1 (Nat.le_add_right _ _)
    · exact hused ▸ hroom
    · rw [hused]

end BlockCompressor

/-! ## (3) Compressed streams -/

/-- The compressors of **this build** write in place. -/
theorem BlockLibrary.standard_inPlace (kind : BlockKind) :
    (@BlockKind.compressor .standard kind).InPlace := by
  cases kind with
  | zstd => exact (BlockCompressor.ofFormat_inPlace .. : Zstd.compressor.InPlace)
  | zlib => exact (BlockCompressor.ofFormat_inPlace .. : Zlib.compressor.InPlace)
  | lz4 =>
      refine (BlockCompressor.inPlace_of_fills fun dst src => ?_ : Lz4.compressor.InPlace)
      cases hdecode : Lz4.decode dst.length src with
      | none =>
        exact .inl ⟨_, by simp only [Lz4.compressor, BlockCompressor.ofFormat, hdecode]; rfl⟩
      | some out =>
        exact .inr ⟨_, out, by simp only [Lz4.compressor, BlockCompressor.ofFormat, hdecode]; rfl⟩

section

variable [BlockLibrary]

/-- **A compressed stream** gives a fault, or as many octets as were asked for. -/
theorem Codec.decodeBytes_exact (hlibrary : ∀ kind : BlockKind, kind.compressor.InPlace)
    (kind : BlockKind) (level : Int32) (src : Bytes) (length : Nat) :
    (∃ e, (Codec.block kind level).decodeBytes src length = .error e) ∨
      ∃ bs, (Codec.block kind level).decodeBytes src length = .ok bs ∧ bs.length = length := by
  have hnew : (Buffer.ofCapacity length).Ordered := ⟨Nat.le_refl 0, Nat.zero_le _⟩
  by_cases hzero : length = 0
  · refine .inr ⟨[], ?_, hzero.symm⟩
    rw [Codec.decodeBytes, if_pos hzero]
  · rw [Codec.decodeBytes, if_neg hzero]
    dsimp only
    cases hreport : (kind.compressor.decompressInto src length (Buffer.ofCapacity length)).1 with
    | error e => exact .inl ⟨e, rfl⟩
    | ok done =>
        obtain ⟨-, hslice, -, hcommitted, -, -⟩ :=
          BlockCompressor.decompressInto_ok (hlibrary kind) hnew hreport
        refine .inr ⟨_, rfl, ?_⟩
        rw [hcommitted, List.length_append, hslice]
        exact Nat.zero_add length

/-- **A compressed stream on a machine** stops the program exactly when its length is more than can
be asked for; it gives a fault otherwise, or as many octets as were asked for. -/
theorem Machine.decodeBytes_exact (hlibrary : ∀ kind : BlockKind, kind.compressor.InPlace)
    (kind : BlockKind) (level : Int32) (src : Bytes) (length : Nat) :
    (Machine.limit < length ∧
        Machine.decodeBytes (.block kind level) src length = .error (.trap .capacity)) ∨
      length ≤ Machine.limit ∧
        ((∃ e, Machine.decodeBytes (.block kind level) src length = .error (.fault e)) ∨
          ∃ bs, Machine.decodeBytes (.block kind level) src length = .ok bs ∧
          bs.length = length) := by
  by_cases hlength : length ≤ Machine.limit
  · refine .inr ⟨hlength, ?_⟩
    rw [(Machine.decodeBytes_guards (.block kind level) src length).agrees hlength]
    rcases Codec.decodeBytes_exact hlibrary kind level src length with ⟨e, hfailed⟩ |
      ⟨bs, hdone, hexact⟩
    · exact .inl ⟨e, by rw [hfailed]; rfl⟩
    · exact .inr ⟨bs, by rw [hdone]; rfl, hexact⟩
  · refine .inl ⟨Nat.not_le.mp hlength, ?_⟩
    rw [Machine.decodeBytes, Machine.allocate_capacity (Nat.not_le.mp hlength)]
    rfl

/-- **Expansion** into a buffer in any state, by any compressor that works in place. It stops the
program exactly when the buffer cannot make room for the length that is asked for. Otherwise, when
it fails, the committed octets and both cursors are as they were; and it succeeds exactly when the
decompressor reports the length that was asked for. Then the slice that the decompressor left, of
that length, is committed behind the other octets. A compressed stream of any kind therefore gives a
fault, or as many octets as were asked for, or stops the program if these are more than can be asked
for. -/
theorem BlockCompressor.expansion_exact (hlibrary : ∀ kind : BlockKind, kind.compressor.InPlace)
    {c : BlockCompressor} (hc : c.InPlace) {out : Buffer} (hout : out.Ordered) (src : Bytes)
    (length : Nat) :
    ((out.Overdraws length ∧ ∃ t, Machine.decompressInto c src length out = .error (.trap t)) ∨
      ¬ out.Overdraws length ∧
        ∃ outcome out', Machine.decompressInto c src length out = .ok (outcome, out') ∧
          (∀ e, outcome = .error e →
            out'.committed = out.committed ∧ out'.used = out.used ∧ out'.treated = out.treated) ∧
          (outcome = .ok () ↔ (c.decompress ((out.reserve length).tail.take length) src).1 =
            .ok length) ∧
          (outcome = .ok () →
            ∃ slice, c.decompress ((out.reserve length).tail.take length) src =
              (.ok length, slice) ∧
              slice.length = length ∧ out'.committed = out.committed ++ slice ∧
              out'.used = out.used + length ∧ out'.treated = out.treated)) ∧
      ∀ (kind : BlockKind) (level : Int32),
        (Machine.limit < length ∧
            Machine.decodeBytes (.block kind level) src length = .error (.trap .capacity)) ∨
          length ≤ Machine.limit ∧
            ((∃ e, Machine.decodeBytes (.block kind level) src length = .error (.fault e)) ∨
              ∃ bs, Machine.decodeBytes (.block kind level) src length = .ok bs ∧
              bs.length = length) := by
  -- the compressors of the library are taken up with the streams; here it is any compressor
  refine ⟨?_, fun kind level => Machine.decodeBytes_exact hlibrary kind level src length⟩
  -- either there is no memory for the octets, or all goes as it does without a limit
  by_cases hover : out.Overdraws length
  · exact .inl ⟨hover, Machine.decompressInto_stops hover⟩
  refine .inr ⟨hover, (c.decompressInto src length out).1, (c.decompressInto src length out).2,
    Machine.decompressInto_eq hout hover, fun e h => ?_, ⟨fun h => ?_, fun h => ?_⟩, fun h => ?_⟩
  · exact (decompressInto_error hout h).2.2
  · exact (decompressInto_ok hc hout h).1
  -- if the decompressor counts right, only success is left
  · cases hreport : (c.decompressInto src length out).1 with
    | error e => exact absurd h (decompressInto_error hout hreport).1
    | ok done => rfl
  · obtain ⟨hreport, hslice, -, hcommitted, hused, htreated⟩ := decompressInto_ok hc hout h
    exact ⟨_, Prod.ext hreport rfl, hslice, hcommitted, hused, htreated⟩

end

/-- A compressor whose decompressor **stamps** the whole slice and counts the octets of its
input. -/
def BlockCompressor.stamp : BlockCompressor where
  name := "stamp"
  bound := id
  compress dst src _ := fill (.compressor "stamp" "compress" (some destinationTooSmall)) dst src
  decompress dst src := (.ok (min src.length dst.length), dst.map fun _ => 7)

/-- The compressor that stamps is one that works in place. -/
theorem BlockCompressor.stamp_inPlace : stamp.InPlace :=
  ⟨fun _ _ => List.length_map .., fun dst src n h => by cases h; exact Nat.min_le_right _ _⟩

/-- A view of borrowed octets whose last octet is not committed: two octets where three were asked
for leave it as it was, three are added to it. There is no room for as many octets as a word
counts. -/
theorem BlockCompressor.expansion_exact_stamp :
    let view : Buffer := { mem := [1, 2, 3], used := 2, treated := 1, owned := false }
    (∃ out e, Machine.decompressInto stamp [0, 0] 3 view = .ok (.error e, out) ∧
      out.committed = [1, 2] ∧
        out.tail.take 3 = [7, 7, 7]) ∧
      (∃ out, Machine.decompressInto stamp [0, 0, 0] 3 view = .ok (.ok (), out) ∧
        out.committed = [1, 2, 7, 7, 7]) ∧
      ∃ t, Machine.decompressInto stamp [] (2 ^ 64 - 1) view = .error (.trap t) := by
  intro view
  have hview : view.Ordered := by decide
  have hlibrary : ∀ kind : BlockKind, (@BlockKind.compressor .standard kind).InPlace :=
    BlockLibrary.standard_inPlace
  obtain ⟨hshort, -⟩ := @expansion_exact .standard hlibrary stamp stamp_inPlace view hview [0, 0] 3
  obtain ⟨hexact, -⟩ := @expansion_exact .standard hlibrary stamp stamp_inPlace view hview
    [0, 0, 0] 3
  obtain ⟨hhuge, -⟩ := @expansion_exact .standard hlibrary stamp stamp_inPlace view hview []
    (2 ^ 64 - 1)
  -- too short a count, the right one, and more octets than there is memory for
  refine ⟨?_, ?_, ?_⟩
  · obtain ⟨hover, -⟩ | ⟨-, outcome, out, hrun, hfailed, hiff, -⟩ := hshort
    · exact absurd hover (by decide)
    · cases outcome with
      | error e =>
          have htail : (stamp.decompressInto [0, 0] 3 view).2.tail.take 3 = [7, 7, 7] := by
            decide +kernel
          have hgiven : Machine.decompressInto stamp [0, 0] 3 view =
            .ok (stamp.decompressInto [0, 0] 3 view) :=
            Machine.decompressInto_eq hview (by decide)
          have hsame := hgiven.symm.trans hrun
          rw [Except.ok.inj hsame] at htail
          exact ⟨out, e, hrun, (hfailed e rfl).1, htail⟩
      | ok _ => exact absurd (hiff.mp rfl) (by decide +kernel)
  · obtain ⟨hover, -⟩ | ⟨-, outcome, out, hrun, -, hiff, hdone⟩ := hexact
    · exact absurd hover (by decide)
    · obtain rfl : outcome = .ok () := hiff.mpr rfl
      obtain ⟨slice, hslice, -, hcommitted, -, -⟩ := hdone rfl
      obtain rfl : [7, 7, 7] = slice := congrArg Prod.snd hslice
      exact ⟨out, hrun, hcommitted⟩
  · obtain ⟨-, hstop⟩ | ⟨hroom, -⟩ := hhuge
    · exact hstop
    · exact absurd (show view.Overdraws (2 ^ 64 - 1) by decide) hroom

end ColumnFile
