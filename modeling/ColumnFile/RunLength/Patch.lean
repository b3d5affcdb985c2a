import ColumnFile.Fault
import ColumnFile.Integer.Width

/-! # Patched values

A list of numbers that are narrow but for a few outliers is stored as the low digits of all of them
and a list of patches: for each outlier, its distance from the outlier before it and its high
digits.

* `Patched` — the low digits, the patches and the widths of both.
* `Patched.ofValues?` — takes a list of numbers apart.
* `Patched.applyPatches` — puts it together again.
-/

namespace ColumnFile

/-- Numbers taken apart into low digits and patches. -/
structure Patched where
  /-- The width of the low digits. -/
  width : Nat
  /-- The width of the high digits in a patch. -/
  patchWidth : Nat
  /-- The width of the distance in a patch. -/
  gapWidth : Nat
  /-- The low digits of every number. -/
  reduced : List Nat
  /-- The patches: a distance above `patchWidth` high digits. -/
  patches : List Nat
deriving DecidableEq, Repr

namespace Patched

/-- The longest list of patches that a run header can count. -/
def maxPatches : Nat := 31

/-- The longest distance that one patch can bridge. -/
def maxGap : Nat := 255

/-- The distance from the outlier before and the high digits of every number past `2 ^ width`;
`gap` is the distance from the outlier before to the head of the list. -/
def outliers (width : Nat) : (gap : Nat) → List Nat → List (Nat × Nat)
  | _, [] => []
  | gap, v :: rest =>
    if v < 1 <<< width then outliers width (gap + 1) rest
    else (gap, v >>> width) :: outliers width 1 rest

/-- The patches of one outlier; a distance past `maxGap` is bridged by patches without digits. -/
def entries (patchWidth : Nat) (gap patch : Nat) : List Nat :=
  if maxGap < gap then maxGap <<< patchWidth :: entries patchWidth (gap - maxGap) patch
  else [gap <<< patchWidth ||| patch]
termination_by gap
decreasing_by
  have h : 0 < maxGap := by decide
  omega

/-- The width of the low digits and of the high digits for numbers of `maxWidth` digits. High digits
of full width would leave no room for a distance, so the low digits then take eight of them. -/
def splitWidths (width maxWidth : Nat) : Nat × Nat :=
  let patchWidth := Width.fixed (maxWidth - width)
  if patchWidth = 64 then (8, 56) else (width, patchWidth)

/-- Takes numbers of at most `maxWidth` digits apart, keeping `width` low digits; `none` when there
is no outlier or there are too many. -/
def ofValues? (values : List Nat) (width maxWidth : Nat) : Option Patched :=
  let (width, patchWidth) := splitWidths width maxWidth
  let found := outliers width 0 values
  let farthest := (found.map (·.1)).foldl max 0
  let patches := found.flatMap fun (gap, patch) => entries patchWidth gap patch
  if patches.isEmpty || maxPatches < patches.length then none
  else some
    { width, patchWidth
      gapWidth := min 8 (Width.required farthest)
      reduced := values.map (· % 1 <<< width)
      patches }

/-- Adds the high digits of each patch to the number that its distance points at; `index` is the
place of the patch before. -/
def applyPatches (width patchWidth : Nat) : (index : Nat) → (patches values : List Nat) →
    Except Fault (List Nat)
  | _, [], values => .ok values
  | index, entry :: rest, values =>
    let gap := entry >>> patchWidth
    let patch := entry % 1 <<< patchWidth
    let index := index + gap
    if gap = maxGap ∧ patch = 0 then applyPatches width patchWidth index rest values
    else match values[index]? with
      | none => .error .patchIndex
      | some v =>
        applyPatches width patchWidth index rest
          (values.set index (v ||| patch <<< width % 1 <<< 64))

end Patched

end ColumnFile
