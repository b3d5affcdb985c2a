import ColumnFile.Integer.Packing
import ColumnFile.Integer.Varint
import ColumnFile.RunLength.Patch

/-! # Runs

The runs that a run-length stream consists of, and their bytes. The two high bits of a run's first
byte give its type:

* short repeat — the size of the value in bytes less one (3 bits), the count less three (3 bits);
  the value, big-endian;
* direct — a width code (5 bits), the count less one (9 bits); the values packed at that width;
* patched base — the same head; the size of the base less one (3 bits), the code of the patch width
  (5 bits), the gap width less one (3 bits), the count of patches (5 bits); the base as sign and
  magnitude, the low digits of the values less the base, the patches;
* delta — the same head, where width code zero stands for steps of one size; the first value and the
  first step as varints, the magnitudes of the further steps packed at the width.

Signed streams store zigzag numbers, unsigned streams the values as they are.

* `Run` — a run.
* `Run.encode` — its bytes.
* `Run.read` — the values of the run at the head of a stream.
-/

namespace ColumnFile

/-- The four **types** of runs. -/
inductive RunType
  | shortRepeat
  | direct
  | patchedBase
  | delta
deriving DecidableEq, Repr, Inhabited

namespace RunType

/-- The two high bits of the first byte of a run. -/
def tag : RunType → Nat
  | shortRepeat => 0
  | direct => 1
  | patchedBase => 2
  | delta => 3

/-- The type of the run that starts with a byte. -/
def ofFirstByte (b : UInt8) : RunType :=
  match b.toNat / 64 with
  | 0 => shortRepeat
  | 1 => direct
  | 2 => patchedBase
  | _ => delta

/-- The name of a type. -/
def name : RunType → String
  | shortRepeat => "ShortRepeat"
  | direct => "Direct"
  | patchedBase => "PatchedBase"
  | delta => "Delta"

end RunType

/-- A **run** of integers. -/
inductive Run
  /-- One value, three to ten times. -/
  | shortRepeat (value : Int64) (count : Nat)
  /-- Values packed at a width. -/
  | direct (width : Nat) (values : List Int64)
  /-- Values above a base, taken apart into low digits and patches. -/
  | patchedBase (base : Int64) (above : Patched)
  /-- Values that keep one distance. -/
  | fixedDelta (first step : Int64) (count : Nat)
  /-- Values that all rise or all fall: the first step with its sign, then the magnitudes of the
  others. -/
  | delta (first step : Int64) (width : Nat) (magnitudes : List Nat)
deriving DecidableEq

namespace Run

/-- The shortest run of equal values that gets a run of its own. -/
def minRepeat : Nat := 3

/-- The longest short repeat. -/
def maxShortRepeat : Nat := 10

/-- The most values of a run. -/
def maxLength : Nat := 512

/-! ## Numbers of a stream -/

/-- The number that stands for a value in a stream. -/
def number (signed : Bool) (v : Int64) : UInt64 :=
  if signed then Zigzag.encode v else v.toUInt64

/-- The value that a number of a stream stands for. -/
def ofNumber (signed : Bool) (n : Nat) : Int64 :=
  if signed then Zigzag.decode (UInt64.ofNat n) else Int64.ofNat n

/-! ## Bytes -/

/-- The two bytes that begin every run but a short repeat. -/
def header (type : RunType) (widthCode count : Nat) : Bytes :=
  let len := count - 1
  [UInt8.ofNat (type.tag * 64 + widthCode * 2 + len / 256), UInt8.ofNat len]

/-- How many bytes the sign and the magnitude of a base take. -/
def baseBytes (base : Int64) : Nat := (Width.required base.toInt.natAbs + 1 + 7) / 8

/-- A base as sign and magnitude, big-endian. -/
def encodeBase (base : Int64) : Bytes :=
  let size := baseBytes base
  let sign := if base < 0 then 1 <<< (8 * size - 1) else 0
  Bytes.ofNatBE size (sign + base.toInt.natAbs)

/-- The bytes of a run in a signed or unsigned stream. -/
def encode (signed : Bool) : Run → Bytes
  | shortRepeat value count =>
    let n := (number signed value).toNat
    let size := (Width.required n + 7) / 8
    UInt8.ofNat ((size - 1) * 8 + (count - minRepeat)) :: Bytes.ofNatBE size n
  | direct width values =>
    header .direct (Width.code width) values.length ++
      Packing.pack (values.map fun v => (number signed v).toNat) width
  | patchedBase base above =>
    header .patchedBase (Width.code above.width) above.reduced.length ++
      [UInt8.ofNat ((baseBytes base - 1) * 32 + Width.code above.patchWidth),
        UInt8.ofNat ((above.gapWidth - 1) * 32 + above.patches.length)] ++
      encodeBase base ++
      Packing.pack above.reduced above.width ++
      Packing.pack above.patches (Width.fixed (above.gapWidth + above.patchWidth))
  | fixedDelta first step count =>
    header .delta 0 count ++ Varint.encode (number signed first) ++ Varint.encodeSigned step
  | delta first step width magnitudes =>
    header .delta (Width.code width) (magnitudes.length + 2) ++
      Varint.encode (number signed first) ++ Varint.encodeSigned step ++
      Packing.pack magnitudes width

/-! ## Reading -/

/-- Reads one byte of a run. -/
def readByte : Bytes → Except Fault (UInt8 × Bytes)
  | [] => .error .runTruncated
  | b :: rest => .ok (b, rest)

/-- Reads a big-endian number of `size` bytes. -/
def readBE (size : Nat) (bs : Bytes) : Except Fault (Nat × Bytes) :=
  match Bytes.take? bs size with
  | none => .error .runTruncated
  | some (front, rest) => .ok (Bytes.toNatBE front, rest)

/-- The width code in the first byte of a run. -/
def widthCode (first : UInt8) : Nat := first.toNat / 2 % 32

/-- Reads the rest of the count that begins in the first byte of a run. -/
def readCount (first : UInt8) (bs : Bytes) : Except Fault (Nat × Bytes) := do
  let (low, rest) ← readByte bs
  return (first.toNat % 2 * 256 + low.toNat + 1, rest)

/-- The integer of a sign and a magnitude in `size` bytes. -/
def ofSignMagnitude (size n : Nat) : Int64 :=
  let sign := 1 <<< (8 * size - 1)
  if n < sign then Int64.ofNat n else Int64.ofInt (-(n - sign : Nat))

/-- Reads a short repeat behind its first byte. -/
def readShortRepeat (signed : Bool) (first : UInt8) (bs : Bytes) :
    Except Fault (List Int64 × Bytes) := do
  let (n, rest) ← readBE (first.toNat / 8 % 8 + 1) bs
  return (List.replicate (first.toNat % 8 + minRepeat) (ofNumber signed n), rest)

/-- Reads a direct run behind its first byte. -/
def readDirect (signed : Bool) (first : UInt8) (bs : Bytes) :
    Except Fault (List Int64 × Bytes) := do
  let (count, rest) ← readCount first bs
  let (numbers, rest) ← Packing.read count (Width.ofCode (widthCode first)) rest
  return (numbers.map (ofNumber signed), rest)

/-- Reads a patched base run behind its first byte. -/
def readPatchedBase (first : UInt8) (bs : Bytes) : Except Fault (List Int64 × Bytes) := do
  let width := Width.ofCode (widthCode first)
  let (count, rest) ← readCount first bs
  let (third, rest) ← readByte rest
  let (fourth, rest) ← readByte rest
  let patchWidth := Width.ofCode (third.toNat % 32)
  let gapWidth := fourth.toNat / 32 + 1
  if 64 < patchWidth + gapWidth then throw .patchTooWide
  let size := third.toNat / 32 + 1
  let (base, rest) ← readBE size rest
  let (reduced, rest) ← Packing.read count width rest
  let (patches, rest) ←
    Packing.read (fourth.toNat % 32) (Width.fixed (patchWidth + gapWidth)) rest
  let values ← Patched.applyPatches width patchWidth 0 patches reduced
  return (values.map fun v => ofSignMagnitude size base + Int64.ofNat v, rest)

/-- The values that follow `value` by steps of the given magnitudes in one direction. -/
def walk (falling : Bool) : (value : Int64) → (magnitudes : List Nat) → List Int64
  | _, [] => []
  | value, m :: rest =>
    let next := if falling then value - Int64.ofNat m else value + Int64.ofNat m
    next :: walk falling next rest

/-- `count` values from `first` on that keep one distance. -/
def progression (step : Int64) : (first : Int64) → (count : Nat) → List Int64
  | _, 0 => []
  | first, count + 1 => first :: progression step (first + step) count

/-- Reads a delta run behind its first byte. -/
def readDelta (signed : Bool) (first : UInt8) (bs : Bytes) :
    Except Fault (List Int64 × Bytes) := do
  let code := widthCode first
  let (count, rest) ← readCount first bs
  let (n, rest) ← Varint.read rest
  let start := ofNumber signed n.toNat
  let (step, rest) ← Varint.readSigned rest
  if code = 0 then return (progression step start count, rest)
  if count < 2 then throw .deltaRunShort
  let (magnitudes, rest) ← Packing.read (count - 2) (Width.ofCode code) rest
  return (start :: (start + step) :: walk (step < 0) (start + step) magnitudes, rest)

/-- Reads the values of the run at the head of a stream. -/
def read (signed : Bool) (bs : Bytes) : Except Fault (List Int64 × Bytes) := do
  let (first, rest) ← readByte bs
  match RunType.ofFirstByte first with
  | .shortRepeat => readShortRepeat signed first rest
  | .direct => readDirect signed first rest
  | .patchedBase => readPatchedBase first rest
  | .delta => readDelta signed first rest

end Run

end ColumnFile
