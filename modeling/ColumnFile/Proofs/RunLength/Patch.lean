import ColumnFile.RunLength.Patch
import ColumnFile.Proofs.Integer.Extremum
import ColumnFile.Proofs.Integer.Width

/-! # Patched values are restored

Taking numbers apart into low digits and patches and putting them together again gives the numbers
back, and what is taken apart fits the fields of a run header.

* **`Patched.applyPatches_entries`** — the patches of one outlier touch that outlier alone.
* **`Patched.applyPatches_outliers`** — walking through the list, every outlier is restored at its
  place.
* **`Patched.Fits`** — widths on their ladder, and digits and patches that fit them. -/

namespace ColumnFile

namespace Patched

/-! ## (1) Restoring -/

/-- An entry is its distance above its digits. -/
theorem entry_eq {patchWidth gap patch : Nat} (h : patch < 2 ^ patchWidth) :
    gap <<< patchWidth ||| patch = gap * 2 ^ patchWidth + patch := by
  rw [← Nat.shiftLeft_add_eq_or_of_lt h, Nat.shiftLeft_eq]

/-- **The patches of one outlier** add its high digits at its place, bridging what lies before. -/
theorem applyPatches_entries {width patchWidth index gap patch v : Nat} {rest values : List Nat}
    (hpos : 0 < patch) (hpatch : patch < 2 ^ patchWidth) (hv : values[index + gap]? = some v) :
    applyPatches width patchWidth index (entries patchWidth gap patch ++ rest) values =
      applyPatches width patchWidth (index + gap) rest
        (values.set (index + gap) (v ||| patch <<< width % 2 ^ 64)) := by
  have htwo : 0 < 2 ^ patchWidth := Nat.two_pow_pos patchWidth
  fun_induction entries patchWidth gap patch generalizing index with
  | case1 gap hgap ih =>
      have hbridge : (maxGap <<< patchWidth) >>> patchWidth = maxGap := by
        rw [Nat.shiftLeft_eq, Nat.shiftRight_eq_div_pow, Nat.mul_div_cancel _ htwo]
      have hempty : (maxGap <<< patchWidth) % 2 ^ patchWidth = 0 := by
        rw [Nat.shiftLeft_eq, Nat.mul_mod_left]
      have hplace : index + maxGap + (gap - maxGap) = index + gap := by omega
      rw [List.cons_append, applyPatches]
      simp only [Nat.one_shiftLeft]
      rw [hbridge, hempty, if_pos ⟨rfl, rfl⟩, ih (by rw [hplace]; exact hv), hplace]
  | case2 gap hgap =>
      have hhigh : (gap * 2 ^ patchWidth + patch) >>> patchWidth = gap := by
        rw [Nat.shiftRight_eq_div_pow, Nat.mul_comm, Nat.mul_add_div htwo, Nat.div_eq_of_lt hpatch,
          Nat.add_zero]
      have hlow : (gap * 2 ^ patchWidth + patch) % 2 ^ patchWidth = patch := by
        rw [Nat.mul_comm, Nat.mul_add_mod, Nat.mod_eq_of_lt hpatch]
      rw [List.singleton_append, entry_eq hpatch, applyPatches]
      simp only [Nat.one_shiftLeft]
      rw [hhigh, hlow, if_neg (by omega), hv]

/-- The low digits with the high digits above them are the number. -/
theorem restore_eq {width v : Nat} (h : v < 2 ^ 64) :
    v % 2 ^ width ||| (v >>> width) <<< width % 2 ^ 64 = v := by
  have hle : (v >>> width) <<< width ≤ v := by
    rw [Nat.shiftLeft_eq, Nat.shiftRight_eq_div_pow]
    exact Nat.div_mul_le_self v _
  rw [Nat.mod_eq_of_lt (Nat.lt_of_le_of_lt hle h), Nat.or_comm,
    ← Nat.shiftLeft_add_eq_or_of_lt (Nat.mod_lt v (Nat.two_pow_pos width)), Nat.shiftLeft_eq,
    Nat.shiftRight_eq_div_pow]
  exact Nat.div_add_mod' v _

/-- **Walking through the list**: behind numbers that are whole, every outlier is restored at its
place. -/
theorem applyPatches_outliers {width patchWidth : Nat} (restored values : List Nat)
    (index gap : Nat) (hplace : restored.length = index + gap)
    (hv : ∀ v ∈ values, v < 2 ^ 64 ∧ v < 2 ^ (width + patchWidth)) :
    applyPatches width patchWidth index
        ((outliers width gap values).flatMap fun (gap, patch) => entries patchWidth gap patch)
        (restored ++ values.map (· % 2 ^ width)) = .ok (restored ++ values) := by
  -- value after value; those below the width are restored as they are, and the gap grows
  induction values generalizing restored index gap with
  | nil => rfl
  | cons v rest ih =>
      obtain ⟨hv64, hfit⟩ := hv v List.mem_cons_self
      have hrest := fun x hx => hv x (List.mem_cons_of_mem v hx)
      rw [outliers, Nat.one_shiftLeft]
      by_cases hlt : v < 2 ^ width
      · have hih := ih (restored ++ [v]) index (gap + 1)
          (by rw [List.length_append, hplace]; rfl) hrest
        rw [List.append_assoc, List.append_assoc] at hih
        rw [if_pos hlt, List.map_cons, Nat.mod_eq_of_lt hlt]
        exact hih
      -- an outlier is at the place that its entries lead to, and is put together there
      · have hpos : 0 < v >>> width := by
          rw [Nat.shiftRight_eq_div_pow]
          exact Nat.div_pos (by omega) (Nat.two_pow_pos width)
        have hpatch : v >>> width < 2 ^ patchWidth := by
          rw [Nat.shiftRight_eq_div_pow, Nat.div_lt_iff_lt_mul (Nat.two_pow_pos width),
            ← Nat.pow_add, Nat.add_comm patchWidth width]
          exact hfit
        have hget : (restored ++ (v :: rest).map (· % 2 ^ width))[index + gap]? =
            some (v % 2 ^ width) := by
          rw [List.map_cons, ← hplace, List.getElem?_append_right (Nat.le_refl _), Nat.sub_self]
          rfl
        have hset : (restored ++ (v :: rest).map (· % 2 ^ width)).set (index + gap) v =
            restored ++ [v] ++ rest.map (· % 2 ^ width) := by
          rw [← hplace, List.set_append_right _ _ (Nat.le_refl _), Nat.sub_self, List.map_cons,
            List.set_cons_zero, List.append_assoc]
          rfl
        have hih := ih (restored ++ [v]) (index + gap) 1
          (by rw [List.length_append, hplace]; rfl) hrest
        rw [if_neg hlt, List.flatMap_cons, applyPatches_entries hpos hpatch hget,
          restore_eq hv64, hset, hih, List.append_assoc]
        rfl

/-- Patches change numbers in place. -/
theorem length_applyPatches {width patchWidth index : Nat} {patches values restored : List Nat}
    (h : applyPatches width patchWidth index patches values = .ok restored) :
    restored.length = values.length := by
  induction patches generalizing index values with
  | nil =>
      rw [applyPatches] at h
      cases h
      rfl
  | cons entry rest ih =>
      rw [applyPatches] at h
      split at h
      · exact ih h
      · split at h
        · cases h
        · rw [ih h, List.length_set]

/-! ## (2) What a run header can hold -/

/-- **Numbers taken apart fit a run header**: both widths have codes, the patches can be counted,
and low digits and patches fit the widths that they are packed at. -/
structure Fits (p : Patched) : Prop where
  width_mem : p.width ∈ Width.fixedLadder
  patchWidth_mem : p.patchWidth ∈ Width.fixedLadder
  gapWidth_pos : 0 < p.gapWidth
  gapWidth_le : p.gapWidth ≤ 8
  widths_le : p.gapWidth + p.patchWidth ≤ 64
  count_le : p.patches.length ≤ maxPatches
  reduced_lt : ∀ v ∈ p.reduced, v < 2 ^ p.width
  patches_lt : ∀ e ∈ p.patches, e < 2 ^ (p.gapWidth + p.patchWidth)

/-- Every entry of an outlier has a distance of its own and digits that fit the patch width. -/
theorem mem_entries {patchWidth gap patch e : Nat} (hpatch : patch < 2 ^ patchWidth)
    (he : e ∈ entries patchWidth gap patch) :
    ∃ g q, e = g * 2 ^ patchWidth + q ∧ g ≤ gap ∧ g ≤ maxGap ∧ q < 2 ^ patchWidth := by
  fun_induction entries patchWidth gap patch with
  | case1 gap hgap ih =>
      rcases List.mem_cons.mp he with rfl | he
      · exact ⟨maxGap, 0, Nat.shiftLeft_eq _ _, by omega, Nat.le_refl _, Nat.two_pow_pos _⟩
      · obtain ⟨g, q, heq, hle, hmax, hq⟩ := ih he
        exact ⟨g, q, heq, by omega, hmax, hq⟩
  | case2 gap hgap =>
      rw [List.mem_singleton] at he
      exact ⟨gap, patch, by rw [he, entry_eq hpatch], Nat.le_refl _, by omega, hpatch⟩

/-- An outlier lies inside the list, and its high digits are those of a number of the list. -/
theorem mem_outliers {width gap : Nat} {values : List Nat} {o : Nat × Nat}
    (ho : o ∈ outliers width gap values) :
    o.1 ≤ gap + values.length ∧ ∃ v ∈ values, o.2 = v >>> width := by
  induction values generalizing gap with
  | nil => cases ho
  | cons v rest ih =>
      rw [outliers, Nat.one_shiftLeft] at ho
      by_cases hlt : v < 2 ^ width
      · rw [if_pos hlt] at ho
        obtain ⟨hle, x, hx, heq⟩ := ih ho
        exact ⟨by rw [List.length_cons]; omega, x, List.mem_cons_of_mem v hx, heq⟩
      · rw [if_neg hlt] at ho
        rcases List.mem_cons.mp ho with rfl | ho
        · exact ⟨Nat.le_add_right _ _, v, List.mem_cons_self, rfl⟩
        · obtain ⟨hle, x, hx, heq⟩ := ih ho
          exact ⟨by rw [List.length_cons]; omega, x, List.mem_cons_of_mem v hx, heq⟩

/-- The widths of low and high digits together reach every number; a patch leaves a byte for its
distance. -/
theorem splitWidths_spec {width maxWidth : Nat} (hw : width ∈ Width.fixedLadder)
    (hmax : maxWidth ≤ 64) :
    (splitWidths width maxWidth).1 ∈ Width.fixedLadder ∧
      (splitWidths width maxWidth).2 ∈ Width.fixedLadder ∧
      (splitWidths width maxWidth).2 ≤ 56 ∧
      maxWidth ≤ (splitWidths width maxWidth).1 + (splitWidths width maxWidth).2 := by
  unfold splitWidths
  dsimp only
  have hmem := Width.fixed_mem (maxWidth - width)
  have hle : maxWidth - width ≤ Width.fixed (maxWidth - width) := Width.le_fixed (by omega)
  have hbelow : ∀ w ∈ Width.fixedLadder, w ≠ 64 → w ≤ 56 := by decide
  by_cases h64 : Width.fixed (maxWidth - width) = 64
  · rw [if_pos h64]
    exact ⟨by decide, by decide, by decide, hmax⟩
  · rw [if_neg h64]
    exact ⟨hw, hmem, hbelow _ hmem h64, by omega⟩

/-- **Numbers taken apart fit a run header, and putting them together restores them.** -/
theorem ofValues?_spec {values : List Nat} {width maxWidth : Nat} {p : Patched}
    (h : ofValues? values width maxWidth = some p) (hw : width ∈ Width.fixedLadder)
    (hmax : maxWidth ≤ 64) (hlen : values.length < 2 ^ 64) (hfit : ∀ v ∈ values, v < 2 ^ maxWidth) :
    p.Fits ∧ p.reduced.length = values.length ∧
      applyPatches p.width p.patchWidth 0 p.patches p.reduced = .ok values := by
  obtain ⟨hlow, hhigh, hbyte, hreach⟩ := splitWidths_spec hw hmax
  unfold ofValues? at h
  generalize splitWidths width maxWidth = widths at h hlow hhigh hbyte hreach
  obtain ⟨low, high⟩ := widths
  dsimp only at h hlow hhigh hbyte hreach
  generalize hfar : ((outliers low 0 values).map (·.1)).foldl max 0 = farthest at h
  -- all values are below the power of both widths together
  have hv : ∀ v ∈ values, v < 2 ^ 64 ∧ v < 2 ^ (low + high) := by
    intro v hv
    have hlt := hfit v hv
    exact ⟨Nat.lt_of_lt_of_le hlt (Nat.pow_le_pow_right (by decide) hmax),
      Nat.lt_of_lt_of_le hlt (Nat.pow_le_pow_right (by decide) hreach)⟩
  have hpatch : ∀ o ∈ outliers low 0 values, o.2 < 2 ^ high := by
    intro o ho
    obtain ⟨-, v, hmem, heq⟩ := mem_outliers ho
    rw [heq, Nat.shiftRight_eq_div_pow, Nat.div_lt_iff_lt_mul (Nat.two_pow_pos low), ← Nat.pow_add,
      Nat.add_comm high low]
    exact (hv v hmem).2
  have hfarthest : farthest < 2 ^ 64 := by
    rw [← hfar]
    refine foldl_max_lt (by decide) ?_
    intro g hg
    obtain ⟨o, ho, rfl⟩ := List.mem_map.mp hg
    have hle := (mem_outliers ho).1
    omega
  have hgapWidth := Width.bounds_of_mem_fixedLadder (Width.required_mem farthest)
  split at h
  · cases h
  · rename_i hcount
    rw [Bool.or_eq_true, decide_eq_true_eq, not_or] at hcount
    cases h
    -- the header fields first, then the entries, last the values
    refine ⟨⟨hlow, hhigh, ?_, ?_, ?_, ?_, ?_, ?_⟩, List.length_map _, ?_⟩
    · show 0 < min 8 _
      omega
    · show min 8 _ ≤ 8
      omega
    · show min 8 _ + high ≤ 64
      omega
    · exact Nat.le_of_not_lt hcount.2
    · intro v hv
      obtain ⟨x, -, rfl⟩ := List.mem_map.mp hv
      rw [Nat.one_shiftLeft]
      exact Nat.mod_lt x (Nat.two_pow_pos low)
    · intro e he
      show e < 2 ^ (min 8 (Width.required farthest) + high)
      obtain ⟨o, ho, he⟩ := List.mem_flatMap.mp he
      obtain ⟨g, q, rfl, hgap, hmaxGap, hq⟩ := mem_entries (hpatch o ho) he
      have hle : o.1 ≤ farthest := by
        rw [← hfar]
        exact (le_foldl_max 0 _).2 o.1 (List.mem_map_of_mem ho)
      have hg : g < 2 ^ min 8 (Width.required farthest) := by
        rcases Nat.le_total 8 (Width.required farthest) with h8 | h8
        · rw [Nat.min_eq_left h8]
          exact Nat.lt_of_le_of_lt hmaxGap (by decide)
        · rw [Nat.min_eq_right h8]
          exact Nat.lt_of_le_of_lt (Nat.le_trans hgap hle) (Width.lt_two_pow_required hfarthest)
      rw [Nat.pow_add]
      calc g * 2 ^ high + q < g * 2 ^ high + 2 ^ high := Nat.add_lt_add_left hq _
        _ = (g + 1) * 2 ^ high := by rw [Nat.succ_mul]
        _ ≤ 2 ^ min 8 (Width.required farthest) * 2 ^ high := Nat.mul_le_mul_right _ hg
    · have hrestored := applyPatches_outliers [] values 0 0 rfl hv
      rw [← Nat.one_shiftLeft low] at hrestored
      exact hrestored

end Patched

end ColumnFile
