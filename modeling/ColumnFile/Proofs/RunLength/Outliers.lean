import ColumnFile.Proofs.RunLength.Machine
import ColumnFile.Proofs.RunLength.Patch

/-! # Which lists can be taken apart, and that nothing is lost

A list with outliers is taken apart exactly when the entries that its outliers need can be counted
in a run header: one for each, and one more for every 255 places that lie between it and the outlier
before. What comes out has a header, fits the widths at which it is packed, and is put together
again by the loop of the reader, with numbers of any size and on words alike.

* **`Patched.length_entries`** — how many entries one outlier needs.
* **`Patched.isSome_ofValues?`** — which lists are taken apart.
* **`Patched.ofValues?_restored`** — what comes out, and that the list comes back. -/

namespace ColumnFile

namespace Patched

/-! ## (1) How many entries there are -/

/-- An outlier needs one entry, and one more for every `maxGap` places before the place next to
it. -/
theorem length_entries (patchWidth gap patch : Nat) :
    (entries patchWidth gap patch).length = (gap - 1) / maxGap + 1 := by
  have hmax : maxGap = 255 := rfl
  fun_induction entries patchWidth gap patch with
  | case1 gap hgap ih =>
      rw [hmax] at hgap ih ⊢
      rw [List.length_cons, ih]
      omega
  | case2 gap hgap =>
      rw [hmax] at hgap ⊢
      rw [List.length_singleton]
      omega

/-- The number of **entries that the outliers of a list need**. -/
def countEntries (width : Nat) (values : List Nat) : Nat :=
  ((outliers width 0 values).map fun o => (o.1 - 1) / maxGap + 1).sum

/-- There are as many entries as are counted. -/
theorem length_flatMap_entries (width patchWidth : Nat) (values : List Nat) :
    ((outliers width 0 values).flatMap fun (gap, patch) => entries patchWidth gap patch).length =
      countEntries width values := by
  rw [List.length_flatMap, countEntries]
  congr 1
  refine List.map_congr_left ?_
  intro o _
  exact length_entries patchWidth o.1 o.2

/-- **A list is taken apart** exactly when it has an outlier and the entries of all of them can be
counted. -/
theorem isSome_ofValues? (values : List Nat) (width maxWidth : Nat) :
    (ofValues? values width maxWidth).isSome ↔
      1 ≤ countEntries (splitWidths width maxWidth).1 values ∧
        countEntries (splitWidths width maxWidth).1 values ≤ maxPatches := by
  unfold ofValues?
  obtain ⟨low, high⟩ := splitWidths width maxWidth
  dsimp only
  rw [← length_flatMap_entries low high values]
  generalize ((outliers low 0 values).flatMap fun (gap, patch) => entries high gap patch) = patches
  rw [Nat.one_le_iff_ne_zero, Ne, List.length_eq_zero_iff]
  by_cases hcount : (patches.isEmpty || decide (maxPatches < patches.length)) = true
  · rw [if_pos hcount]
    rw [Bool.or_eq_true, List.isEmpty_iff, decide_eq_true_eq] at hcount
    refine iff_of_false Bool.false_ne_true ?_
    rintro ⟨hsome, hmost⟩
    exact hcount.elim hsome (Nat.not_lt.mpr hmost)
  · rw [if_neg hcount]
    rw [Bool.or_eq_true, List.isEmpty_iff, decide_eq_true_eq, not_or] at hcount
    exact iff_of_true rfl ⟨hcount.1, Nat.le_of_not_lt hcount.2⟩

/-! ## (2) What comes out -/

variable {values : List Nat} {width maxWidth : Nat} {p : Patched}

/-- There is an entry for each outlier, and no list is taken apart without one. -/
theorem patches_ne_nil (h : ofValues? values width maxWidth = some p) : p.patches ≠ [] := by
  unfold ofValues? at h
  dsimp only at h
  split at h
  · cases h
  · rename_i hcount
    rw [Bool.or_eq_true, List.isEmpty_iff, not_or] at hcount
    cases h
    exact hcount.1

/-- An entry whose fields fit has a distance of one byte at most. -/
theorem Fits.gap_lt (h : p.Fits) {e : Nat} (he : e ∈ p.patches) : e >>> p.patchWidth < 2 ^ 16 := by
  rw [Nat.shiftRight_eq_div_pow, Nat.div_lt_iff_lt_mul (Nat.two_pow_pos _), ← Nat.pow_add]
  refine Nat.lt_of_lt_of_le (h.patches_lt e he) (Nat.pow_le_pow_right (by decide) ?_)
  have hle := h.gapWidth_le
  omega

/-- **The loop on words** does what the loop on numbers of any size does: entries whose fields fit
do not lead it out of range. -/
theorem Fits.applyPatches_eq (h : p.Fits) (values : List Nat) :
    Machine.applyPatches p.width p.patchWidth (2 ^ p.patchWidth - 1) 0 p.patches values =
      (applyPatches p.width p.patchWidth 0 p.patches values).mapError .fault := by
  have hwidths := h.widths_le
  have hgap := h.gapWidth_pos
  have hcount : p.patches.length ≤ 31 := h.count_le
  exact Machine.applyPatches_eq (by omega) (fun e he => h.gap_lt he) (by omega)

/-- **Taking a list apart loses nothing.** The widths have codes, the distances and their digits fit
a word, there are 1 to 31 entries, low digits and entries fit the widths at which they are packed;
and the loop of the reader puts the list together again, whatever numbers it has. -/
theorem ofValues?_restored (hw : width ∈ Width.fixedLadder) (hm : maxWidth ∈ Width.fixedLadder)
    (hlen : values.length ≤ 512) (hfit : ∀ v ∈ values, v < 2 ^ maxWidth)
    (h : ofValues? values width maxWidth = some p) :
    (1 ≤ p.gapWidth ∧ p.gapWidth ≤ 8 ∧ p.patchWidth + p.gapWidth ≤ 64) ∧
      (1 ≤ p.patches.length ∧ p.patches.length ≤ 31) ∧
      (p.patchWidth ∈ Width.fixedLadder ∧ p.width ∈ Width.fixedLadder) ∧
      (∀ v ∈ p.reduced, v < 2 ^ p.width) ∧
      (∀ e ∈ p.patches, e < 2 ^ Width.fixed (p.gapWidth + p.patchWidth)) ∧
      applyPatches p.width p.patchWidth 0 p.patches p.reduced = .ok values ∧
      Machine.applyPatches p.width p.patchWidth (2 ^ p.patchWidth - 1) 0 p.patches p.reduced =
        .ok values := by
  have hmax : maxWidth ≤ 64 := (Width.bounds_of_mem_fixedLadder hm).2
  obtain ⟨hfits, -, hrestored⟩ := ofValues?_spec h hw hmax (by omega) hfit
  refine ⟨⟨hfits.gapWidth_pos, hfits.gapWidth_le, ?_⟩, ⟨?_, hfits.count_le⟩,
    ⟨hfits.patchWidth_mem, hfits.width_mem⟩, hfits.reduced_lt, ?_, hrestored, ?_⟩
  · rw [Nat.add_comm]
    exact hfits.widths_le
  · exact List.length_pos_of_ne_nil (patches_ne_nil h)
  · intro e he
    have hwide : p.gapWidth + p.patchWidth ≤ Width.fixed (p.gapWidth + p.patchWidth) :=
      Width.le_fixed hfits.widths_le
    exact Nat.lt_of_lt_of_le (hfits.patches_lt e he) (Nat.pow_le_pow_right (by decide) hwide)
  · -- nothing is out of range on words, so the loop ends as it does on numbers
    rw [hfits.applyPatches_eq, hrestored]
    rfl

/-- A run of 300 zeros before an outlier of 63 digits: the digits above the first would fill a word,
so eight are kept instead, and the distance is bridged by an entry without digits, which reaches the
sign of a word. -/
def farOutlier : List Nat := List.replicate 300 0 ++ [2 ^ 63 - 1]

/-- An outlier that is too far for one gap, and another behind it: both are restored. -/
theorem ofValues?_restored_far_outlier :
    ∃ p, ofValues? farOutlier 1 64 = some p ∧ p.width = 8 ∧ p.patchWidth = 56 ∧ p.gapWidth = 8 ∧
      p.patches = [255 * 2 ^ 56, 45 * 2 ^ 56 + (2 ^ 55 - 1)] ∧
      applyPatches p.width p.patchWidth 0 p.patches p.reduced = .ok farOutlier := by
  have hlen : farOutlier.length ≤ 512 := by decide +kernel
  have hfit : ∀ v ∈ farOutlier, v < 2 ^ 64 := by decide +kernel
  obtain ⟨p, hp, hfields⟩ : ∃ p, ofValues? farOutlier 1 64 = some p ∧ p.width = 8 ∧
    p.patchWidth = 56 ∧
      p.gapWidth = 8 ∧ p.patches = [255 * 2 ^ 56, 45 * 2 ^ 56 + (2 ^ 55 - 1)] := by
    refine ⟨⟨8, 56, 8, List.replicate 300 0 ++ [255], [255 * 2 ^ 56, 45 * 2 ^ 56 + (2 ^ 55 - 1)]⟩,
      ?_, ?_⟩
    · decide +kernel
    · decide
  obtain ⟨hwidth, hpatchWidth, hgapWidth, hpatches⟩ := hfields
  have hrestored := ofValues?_restored (by decide) (by decide) hlen hfit hp
  exact ⟨p, hp, hwidth, hpatchWidth, hgapWidth, hpatches, hrestored.2.2.2.2.2.1⟩

end Patched

end ColumnFile
