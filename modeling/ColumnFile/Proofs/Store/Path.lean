import ColumnFile.Options.Writer
import ColumnFile.Store.Path

/-! # Paths with a suffix

Two paths name the same file when they have the same parts. A suffix is added to the last part only,
so paths that name the same file with it do so without it.

* **`Path.splitOn_append`** — the texts between separators, with a suffix.
* **`Path.parts_eq`** — the parts of a path, the last one apart.
* **`Path.same_of_append`** — paths that name the same file with a suffix. -/

namespace ColumnFile

namespace Path

/-- Paths are the same when their parts are. -/
theorem same_iff {a b : String} : same a b = true ↔ parts a = parts b := by
  rw [same, decide_eq_true_eq]

/-- Paths are the same in either order. -/
theorem same_symm {a b : String} (h : same a b = true) : same b a = true :=
  same_iff.mpr (same_iff.mp h).symm

/-- Paths that are the same as another are the same. -/
theorem same_trans {a b c : String} (h : same a b = true) (h' : same b c = true) :
    same a c = true :=
  same_iff.mpr ((same_iff.mp h).trans (same_iff.mp h'))

/-! ## (1) Texts between separators -/

/-- **A suffix without separators** is added to the last text. -/
theorem splitOn_append {l suffix : List Char} (h : '/' ∉ suffix) :
    ∃ front last, l.splitOn '/' = front ++ [last] ∧
      (l ++ suffix).splitOn '/' = front ++ [last ++ suffix] := by
  induction l with
  | nil => exact ⟨[], [], List.splitOn_nil _, List.splitOn_eq_singleton h⟩
  | cons c l ih =>
      obtain ⟨front, last, hplain, hwith⟩ := ih
      rw [List.cons_append, List.splitOn_cons_eq_if_modifyHead, List.splitOn_cons_eq_if_modifyHead,
        hplain, hwith]
      by_cases hslash : (c == '/') = true
      · rw [if_pos hslash, if_pos hslash]
        exact ⟨[] :: front, last, rfl, rfl⟩
      · rw [if_neg hslash, if_neg hslash]
        cases front with
        | nil => exact ⟨[], c :: last, rfl, rfl⟩
        | cons first front => exact ⟨(c :: first) :: front, last, rfl, rfl⟩

/-! ## (2) Parts -/

/-- The parts that the texts before the last separator stand for. -/
def leading : List (List Char) → List PathPart
  | [] => []
  | first :: rest =>
    (if first.isEmpty then [PathPart.root] else (part? true first).toList) ++ rest.filterMap
      (part? false)

/-- **The parts of a path**: those before the last separator, and the last one if there is one. -/
theorem parts_eq {path : String} {front : List (List Char)} {last : List Char}
    (h : path.toList.splitOn '/' = front ++ [last]) :
    parts path = leading front ++ (part? front.isEmpty last).toList := by
  rw [parts, h]
  cases front with
  | nil =>
      show (if last.isEmpty = true ∧ (!([] : List (List Char)).isEmpty) = true then _ else _) ++ _ =
        _
      rw [if_neg (by rintro ⟨-, h⟩; cases h)]
      exact List.append_nil _
  | cons first front =>
      have hsome : (!(front ++ [last]).isEmpty) = true := by
        cases front <;> rfl
      show (if first.isEmpty = true ∧ (!(front ++ [last]).isEmpty) = true then _ else _) ++
        (front ++ [last]).filterMap (part? false) = _
      rw [leading, List.filterMap_append, ← List.append_assoc]
      by_cases hempty : first.isEmpty = true
      · rw [if_pos ⟨hempty, hsome⟩, if_pos hempty]
        cases hlast : part? false last with
        | none => simp [hlast]
        | some part => simp [hlast]
      · rw [if_neg (fun h => hempty h.1), if_neg hempty]
        cases hlast : part? false last with
        | none => simp [hlast]
        | some part => simp [hlast]

/-- Before a separator there is a part. -/
theorem leading_eq_nil {front : List (List Char)} (h : leading front = []) : front = [] := by
  cases front with
  | nil => rfl
  | cons first rest =>
      rw [leading, List.append_eq_nil_iff] at h
      obtain ⟨h, -⟩ := h
      by_cases hempty : first.isEmpty = true
      · rw [if_pos hempty] at h
        cases h
      · rw [if_neg hempty] at h
        rw [part?, if_neg (fun hnil => hempty (by rw [hnil]; rfl))] at h
        split at h
        · cases h
        · split at h
          · cases h
          · cases h

/-- A long text is a name. -/
theorem part?_of_long {first : Bool} {s : List Char} (h : 2 < s.length) :
    part? first s = some (.name (String.ofList s)) := by
  rw [part?, if_neg, if_neg, if_neg]
  · rintro rfl
    exact absurd h (by decide)
  · rintro rfl
    exact absurd h (by decide)
  · rintro rfl
    exact absurd h (by decide)

/-! ## (3) Suffixes -/

/-- **Paths that name the same file with a suffix** name the same file without it. -/
theorem same_of_append {a b suffix : String} (hslash : '/' ∉ suffix.toList)
    (hlong : 2 < suffix.toList.length) (h : same (a ++ suffix) (b ++ suffix) = true) :
    same a b = true := by
  obtain ⟨front, last, hplain, hwith⟩ := splitOn_append (l := a.toList) hslash
  obtain ⟨front', last', hplain', hwith'⟩ := splitOn_append (l := b.toList) hslash
  rw [← String.toList_append] at hwith hwith'
  have hname : ∀ first (s : List Char),
      part? first (s ++ suffix.toList) = some (.name (String.ofList (s ++ suffix.toList))) := by
    intro first s
    refine part?_of_long ?_
    rw [List.length_append]
    omega
  rw [same_iff, parts_eq hwith, parts_eq hwith', hname, hname] at h
  obtain ⟨hleading, hlast⟩ := List.append_inj' h rfl
  have hsame : last = last' := by
    have htext : String.ofList (last ++ suffix.toList) =
      String.ofList (last' ++ suffix.toList) := by
      injection hlast with hlast
      injection hlast
    exact List.append_cancel_right (String.ofList_injective htext)
  have hempty : front.isEmpty = front'.isEmpty := by
    cases front with
    | nil =>
        rw [leading_eq_nil hleading.symm]
    | cons first rest =>
        cases front' with
        | nil => cases leading_eq_nil hleading
        | cons first' rest' => rfl
  rw [same_iff, parts_eq hplain, parts_eq hplain', hleading, hsame, hempty]

/-- **Names of files of out-of-line values** are the same only beside files whose names are. -/
theorem same_of_toastFileName {a b : String} (h : same (toastFileName a) (toastFileName b) = true) :
    same a b = true :=
  same_of_append (by decide) (by decide) h

end Path

end ColumnFile
