import ColumnFile.Codec
import ColumnFile.Proofs.Bitmap.Count
import ColumnFile.Proofs.Fault
import ColumnFile.Proofs.Integer.Delta
import ColumnFile.Proofs.RunLength.Decoder

/-! # Codecs read back

What is asked of a library of block compressors, and that every codec gives a stream back from its
encoded form.

* **`BlockLibrary.Total`**, **`BlockLibrary.Restores`** — compression never fails, and is undone
  when the length is known; `BlockLibrary.Classed` — when it fails, it says so.
* **`BlockLibrary.verbatim`** — a library that does all this, by keeping every string as it is.
* **`Codec.decodeBytes_block`** — a compressed stream reads back.
* **`Codec.decodeInts_encodeInts`**, **`Codec.decodeNotNull_encodeInts`** — encoded integers read
  back.
* **`Codec.suits`** — which codecs serve a shape; `resolve_spec` is what a writer's choice comes
  to. -/

namespace ColumnFile

/-! ## (1) Block compression -/

namespace BlockCompressor

/-- A compressor that **never fails** on its own bound. -/
def Total (c : BlockCompressor) : Prop :=
  ∀ src level, ∃ packed, c.compressAll src level = .ok packed

/-- A compressor whose decompressor **restores** what it made, in a slice of the original length. -/
def Restores (c : BlockCompressor) : Prop :=
  ∀ src level packed dst, c.compressAll src level = .ok packed → dst.length = src.length →
    c.decompress dst packed = (.ok src.length, src)

/-- A compressor whose faults are **classed** as its own. -/
def Classed (c : BlockCompressor) : Prop :=
  ∀ src level e, c.compressAll src level = .error e → e.cls = .compression

/-- **A compressed string is decompressed** into a buffer of its length. -/
theorem decompressInto_spec {c : BlockCompressor} (hc : c.Restores) {src packed : Bytes}
    {level : Int32} (h : c.compressAll src level = .ok packed) :
    ∃ out, c.decompressInto packed src.length (Buffer.ofCapacity src.length) = (.ok (), out) ∧
      out.committed = src := by
  -- the buffer is as long as the string, so nothing is reserved and the slice is all of its memory
  have hcapacity : (Buffer.ofCapacity src.length).capacity = src.length := List.length_replicate
  have hroom : (Buffer.ofCapacity src.length).available = src.length := hcapacity
  have hreserve : (Buffer.ofCapacity src.length).reserve src.length =
      Buffer.ofCapacity src.length := by
    rw [Buffer.reserve, if_pos (Nat.le_of_eq hroom.symm)]
  have hslice : ((Buffer.ofCapacity src.length).tail.take src.length).length = src.length := by
    rw [Buffer.tail, List.length_take, List.length_drop]
    show min src.length ((Bytes.zeros src.length).length - 0) = src.length
    rw [Bytes.zeros, List.length_replicate, Nat.sub_zero, Nat.min_self]
  have hdecompress := hc src level packed _ h hslice
  have hput : (Buffer.ofCapacity src.length).put 0 src =
      { mem := src, used := 0, treated := 0, owned := true } := by
    have hmem : (Bytes.zeros src.length).overwrite 0 src = src := by
      rw [Bytes.overwrite, Bytes.zeros, List.take_zero, List.nil_append, List.length_replicate,
        Nat.zero_sub, Nat.zero_add, List.drop_replicate, Nat.sub_self]
      exact List.append_nil src
    rw [Buffer.put]
    show ({ mem := (Bytes.zeros src.length).overwrite 0 src, used := 0, treated := 0,
            owned := true } :
      Buffer) = _
    rw [hmem]
  -- what is committed then is the whole memory
  have hcommit : (Buffer.mk src 0 0 true).commit src.length =
    .ok (Buffer.mk src src.length 0 true) := by
    rw [Buffer.commit, if_neg (by exact Nat.lt_irrefl _), Nat.zero_add]
  refine ⟨{ mem := src, used := src.length, treated := 0, owned := true }, ?_, List.take_length⟩
  rw [decompressInto, expandInto, hreserve, hdecompress]
  dsimp only
  have hused : (Buffer.ofCapacity src.length).used = 0 := rfl
  rw [if_neg (by exact fun h => h rfl), List.take_length, hused, hput, hcommit]

end BlockCompressor

namespace BlockCompressor

/-- The compressor that keeps every string keeps it in a slice of its length. -/
theorem fill_self (tooSmall : Fault) {dst src : Bytes} (h : dst.length = src.length) :
    fill tooSmall dst src = (.ok src.length, src) := by
  rw [fill, if_neg (by rw [h]; exact Nat.lt_irrefl _), List.drop_of_length_le (Nat.le_of_eq h),
    List.append_nil]

/-- Octets are compressed to what they were. -/
theorem none_compressAll (src : Bytes) (level : Int32) : none.compressAll src level = .ok src := by
  have hlength : (Bytes.zeros (none.bound src.length)).length = src.length := List.length_replicate
  have hcompress : none.compress (Bytes.zeros (none.bound src.length)) src level =
    (.ok src.length, src) :=
    fill_self _ hlength
  rw [compressAll, hcompress]
  dsimp only
  rw [Except.map, List.take_length]

/-- The compressor that keeps octets as they are never fails. -/
theorem none_total : none.Total := fun src level => ⟨src, none_compressAll src level⟩

/-- So its faults are classed as its own: it has none. -/
theorem none_classed : none.Classed := by
  intro src level e h
  rw [none_compressAll] at h
  cases h

/-- It restores what it was given, which is what it made. -/
theorem none_restores : none.Restores := by
  intro src level packed dst h hlength
  rw [none_compressAll, Except.ok.injEq] at h
  subst h
  exact fill_self _ hlength

end BlockCompressor

namespace BlockLibrary

/-- No compressor of the library fails on its own bound. -/
def Total [BlockLibrary] : Prop := ∀ kind : BlockKind, kind.compressor.Total

/-- Every compressor of the library restores what it made. -/
def Restores [BlockLibrary] : Prop := ∀ kind : BlockKind, kind.compressor.Restores

/-- The faults of every compressor of the library are classed as such. -/
def Classed [BlockLibrary] : Prop := ∀ kind : BlockKind, kind.compressor.Classed

/-- The **library that keeps every string** as it is. -/
@[reducible]
def verbatim : BlockLibrary where
  compressor _ := .none

/-- The library of such compressors never fails. -/
theorem verbatim_total : @Total verbatim := fun _ => BlockCompressor.none_total

/-- Its faults are classed. -/
theorem verbatim_classed : @Classed verbatim := fun _ => BlockCompressor.none_classed

/-- It restores what it was given. -/
theorem verbatim_restores : @Restores verbatim := fun _ => BlockCompressor.none_restores

end BlockLibrary

namespace Codec

/-! ## (2) Codecs and shapes -/

/-- Which codecs serve a stream of a shape. -/
def suits : Codec → StreamShape → Bool
  | plain, _ => true
  | block .., _ => true
  | runLength _, .integers => true
  | delta, .integers => true
  | dictionary, .values => true
  | _, _ => false

/-- A codec that is chosen suits its stream, and is the one that reads what it writes. -/
theorem suits_ofEncoding? {kind : Encoding} {level : Int32} {shape : StreamShape} {signed : Bool}
    {codec : Codec} (h : ofEncoding? kind level shape signed = some codec) :
    codec.suits shape = true ∧ forReading { kind, level } signed = .ok codec := by
  cases kind <;> cases shape <;> cases h <;> exact ⟨rfl, rfl⟩

/-- A codec for scalars also serves integers. -/
theorem suits_integers {codec : Codec} (h : codec.suits .scalars = true) :
    codec.suits .integers = true := by
  cases codec <;> first | rfl | cases h

/-- **What a writer's choice comes to**: a codec that serves the shape, and a choice from which a
reader finds that codec. -/
theorem resolve_spec (choice : EncodingChoice) (shape : StreamShape) (signed : Bool) :
    (resolve choice shape signed).1.suits shape = true ∧
      forReading (resolve choice shape signed).2 signed = .ok (resolve choice shape signed).1 := by
  unfold resolve
  dsimp only
  split
  · rename_i codec hcodec
    exact suits_ofEncoding? hcodec
  · exact ⟨rfl, rfl⟩

variable [BlockLibrary]

/-! ## (3) Streams -/

/-- **A compressed stream reads back**, the empty one as well, which is not compressed. -/
theorem decodeBytes_block (hlibrary : BlockLibrary.Restores) {kind : BlockKind} {level : Int32}
    {raw packed : Bytes} (h : compressBlock kind level raw = .ok packed) :
    decodeBytes (block kind level) packed raw.length = .ok raw := by
  unfold compressBlock at h
  rw [decodeBytes]
  by_cases hempty : raw = []
  · rw [hempty, List.length_nil, if_pos rfl]
  · have hisEmpty : ¬ raw.isEmpty = true := by
      rw [List.isEmpty_iff]
      exact hempty
    rw [if_neg hisEmpty] at h
    obtain ⟨out, hinto, hcommitted⟩ := BlockCompressor.decompressInto_spec (hlibrary kind) h
    rw [if_neg (by rw [List.length_eq_zero_iff]; exact hempty), hinto]
    dsimp only
    rw [hcommitted]
    rfl

/-- A block is compressed by a library that never fails. -/
theorem compressBlock_total (hlibrary : BlockLibrary.Total) (kind : BlockKind) (level : Int32)
    (raw : Bytes) : ∃ packed, compressBlock kind level raw = .ok packed := by
  unfold compressBlock
  split
  · exact ⟨[], rfl⟩
  · exact hlibrary kind raw level

/-- **Encoded integers read back**, when the codec is one of integers. -/
theorem decodeInts_encodeInts {codec : Codec} {values : List Int64} {raw packed : Bytes}
    (hcodec : (∃ signed, codec = runLength signed) ∨ codec = delta)
    (hcount : values.length < 2 ^ 64) (h : codec.encodeInts values raw = .ok packed) :
    codec.decodeInts packed values.length = .ok values := by
  rcases hcodec with ⟨signed, rfl⟩ | rfl
  · cases h
    obtain ⟨d, htake⟩ := RunDecoder.take_encodeAll signed values
    rw [decodeInts, htake]
    dsimp only [ok_bind]
    rfl
  · cases h
    rw [decodeInts, Delta.decode_encode values hcount, ok_bind]
    dsimp only
    rw [if_neg (by exact fun h => h rfl)]
    rfl

/-- **Encoded integers read back** behind a bitmap that has a set bit for each of them. -/
theorem decodeNotNull_encodeInts {codec : Codec} {values : List Int64} {raw packed : Bytes}
    {notNull : Bitmap} (hcodec : (∃ signed, codec = runLength signed) ∨ codec = delta)
    (hcount : values.length < 2 ^ 64) (htidy : notNull.Tidy) (hset : notNull.count = values.length)
    (h : codec.encodeInts values raw = .ok packed) :
    codec.decodeNotNull packed notNull = .ok values := by
  have hints := decodeInts_encodeInts hcodec hcount h
  have hrange : notNull.countRange 0 notNull.len = values.length := htidy.countRange_len.trans hset
  rcases hcodec with ⟨signed, rfl⟩ | rfl
  · cases h
    obtain ⟨d, htake⟩ := RunDecoder.take_encodeAll signed values
    rw [decodeNotNull, RunDecoder.takeSet, hrange, htake]
    rfl
  · rw [decodeNotNull, hset]
    · exact hints
    · intro signed hne
      cases hne

end Codec

end ColumnFile
