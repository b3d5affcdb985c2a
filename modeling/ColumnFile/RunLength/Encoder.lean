import ColumnFile.Integer.Difference
import ColumnFile.RunLength.Run

/-! # Run-length encoding

Values gather in a window of pending literals, of which the encoder knows how many repeats or how
many varying values stand at its end. When the window is full, when a repeat ends a varying stretch
or when it is told to, it writes the window as one run.

* `Run.ofLiterals` — the run that stores a window of varying values.
* `RunEncoder` — a window and the bytes written so far.
* `RunEncoder.append`, `RunEncoder.flush` — one more value, and the end of the window.
* `RunEncoder.encodeAll` — the stream of a list.
-/

namespace ColumnFile

namespace Run

/-! ## Choosing a run -/

/-- The least and the greatest of `first` and the values of a list. -/
def bounds (first : Int64) (rest : List Int64) : Int64 × Int64 :=
  (rest.foldl min first, rest.foldl max first)

/-- The run of values above their least value, if patches pay: the widest tenth of the numbers is
at least two bits wider than the others, the base leaves room for its sign, and the widest
twentieth of the values above the base is wider than the others. -/
def patchedOf? (signed : Bool) (least : Int64) (literals : List Int64) : Option Run :=
  let n := literals.length
  let numbers := literals.map fun v => (number signed v).toNat
  if Width.covering ((n - 1) / 10 : Nat) numbers + 1 < Width.covering 0 numbers
      ∧ least.toInt.natAbs < 1 <<< 56 then
    let above := literals.map fun v => (v - least).toUInt64.toNat
    let most := Width.covering (n / 20 : Nat) above
    let every := Width.covering 0 above
    if every = most then none
    else (Patched.ofValues? above most every).map (patchedBase least)
  else none

/-- The run of values packed as they are. -/
def directOf (signed : Bool) (literals : List Int64) : Run :=
  direct (Width.aligned (Width.covering 0 (literals.map fun v => (number signed v).toNat))) literals

/-- The run that stores a window: a delta run when the values keep one distance, all rise or all
fall, else a patched base run when that pays, else a direct run. A window of at most three values,
or of values too far apart, is stored directly. -/
def ofLiterals (signed : Bool) (literals : List Int64) : Run :=
  match literals with
  | first :: second :: _ =>
    if literals.length ≤ minRepeat then directOf signed literals
    else
      let (least, greatest) := bounds first literals
      if (1 <<< 63 : Nat) ≤ greatest.toInt - least.toInt then directOf signed literals
      else
        let step := second - first
        let distances := differences literals
        if least = greatest then fixedDelta first 0 literals.length
        else if distances.all (· == step) then fixedDelta first step literals.length
        else if step ≠ 0 ∧ (distances.all (0 ≤ ·) ∨ distances.all (· ≤ 0)) then
          let magnitudes := distances.tail.map fun d => d.toInt.natAbs
          let width := Width.aligned (Width.required (magnitudes.foldl max 0))
          delta first step (max 2 width) magnitudes
        else (patchedOf? signed least literals).getD (directOf signed literals)
  | _ => directOf signed literals

end Run

/-- A **run-length encoder**: the bytes written, the pending literals and what it knows of them. -/
structure RunEncoder where
  /-- Whether the stream holds signed integers. -/
  signed : Bool
  /-- The bytes written. -/
  out : Array UInt8 := #[]
  /-- The literals that are in no run yet. -/
  literals : List Int64 := []
  /-- How many equal values stand at the end of the literals, when they repeat. -/
  fixedRun : Nat := 0
  /-- How many varying values the literals hold, when they vary. -/
  varRun : Nat := 0
  /-- The distance between the last two literals. -/
  lastStep : Int64 := 0
deriving DecidableEq

namespace RunEncoder

/-- The bytes written, as a byte string. -/
def output (e : RunEncoder) : Bytes := e.out.toList

/-- Writes a run for the pending literals, which leaves none. -/
def write (e : RunEncoder) (run : Run) : RunEncoder :=
  { e with out := e.out ++ run.encode e.signed, literals := [], lastStep := 0 }

/-- Writes the pending literals as a run of one distance. -/
def writeFixedDelta (e : RunEncoder) (first step : Int64) : RunEncoder :=
  let written := e.write (.fixedDelta first step e.literals.length)
  if Run.minRepeat < e.fixedRun then { written with fixedRun := 0 }
  else { written with varRun := 0 }

/-- Writes the pending literals as repeats: a short repeat if they are few. -/
def writeRepeat (e : RunEncoder) : RunEncoder :=
  let value := e.literals.headD 0
  if e.fixedRun ≤ Run.maxShortRepeat then
    { e.write (.shortRepeat value e.literals.length) with fixedRun := 0 }
  else e.writeFixedDelta value 0

/-- Writes the pending literals as varying values. -/
def writeVarying (e : RunEncoder) : RunEncoder :=
  if e.literals.isEmpty then e
  else match Run.ofLiterals e.signed e.literals with
    | .fixedDelta first step _ => e.writeFixedDelta first step
    | run => { e.write run with varRun := 0 }

/-- Starts a window with one literal. -/
def start (e : RunEncoder) (v : Int64) : RunEncoder :=
  { e with literals := e.literals ++ [v], fixedRun := 1, varRun := 1 }

/-- Adds the second literal of a window. -/
def second (e : RunEncoder) (first v : Int64) : RunEncoder :=
  let e := { e with lastStep := v - first, literals := e.literals ++ [v] }
  if v = first then { e with fixedRun := 2, varRun := 0 }
  else { e with fixedRun := 0, varRun := 2 }

/-- Adds a literal that repeats the two before it. The third repeat behind varying values ends
them: they are written and the repeats stay pending. -/
def addRepeat (e : RunEncoder) (v : Int64) : RunEncoder :=
  let literals := e.literals ++ [v]
  let fixedRun := (if 0 < e.varRun then 2 else e.fixedRun) + 1
  let e := { e with literals, fixedRun }
  let e :=
    if Run.minRepeat ≤ fixedRun ∧ 0 < e.varRun then
      let split := literals.length - Run.minRepeat
      let varying :=
        { e with literals := literals.take split, varRun := e.varRun - (Run.minRepeat - 1) }
      let written := varying.writeVarying
      { written with literals := written.literals ++ literals.drop split }
    else e
  if e.fixedRun = Run.maxLength then e.writeFixedDelta (e.literals.headD 0) 0 else e

/-- Adds a literal that differs from the one before it. -/
def addVarying (e : RunEncoder) (v : Int64) : RunEncoder :=
  let e := if Run.minRepeat ≤ e.fixedRun then e.writeRepeat else e
  match e.literals.getLast? with
  | none => e.start v
  | some last =>
    let e :=
      if 0 < e.fixedRun ∧ e.fixedRun < Run.minRepeat ∧ v ≠ last then
        { e with varRun := e.fixedRun, fixedRun := 0 }
      else e
    let e :=
      { e with lastStep := v - last, literals := e.literals ++ [v], varRun := e.varRun + 1 }
    if e.varRun = Run.maxLength then e.writeVarying else e

/-- One more value. -/
def append (e : RunEncoder) (v : Int64) : RunEncoder :=
  match e.literals with
  | [] => e.start v
  | [first] => e.second first v
  | _ :: _ :: _ =>
    let step := v - e.literals.getLastD 0
    if e.lastStep = 0 ∧ step = 0 then e.addRepeat v else e.addVarying v

/-- Writes the pending literals; without any it changes nothing. -/
def flush (e : RunEncoder) : RunEncoder :=
  if e.literals.isEmpty then e
  else if e.varRun ≠ 0 then e.writeVarying
  else if e.fixedRun = 0 then e
  else if e.fixedRun < Run.minRepeat then
    { e with varRun := e.fixedRun, fixedRun := 0 }.writeVarying
  else e.writeRepeat

/-- The stream of a list of values. -/
def encodeAll (signed : Bool) (values : List Int64) : Bytes :=
  (values.foldl append { signed }).flush.output

end RunEncoder

end ColumnFile
