import ColumnFile.RunLength.Encoder
import ColumnFile.Proofs.Integer.Difference
import ColumnFile.Proofs.RunLength.Run

/-! # The run of a window stores the window

Whatever run is chosen for a window of literals, it stores exactly them.

* **`Run.progression_of_steps`** — literals that keep one distance are a progression.
* **`Run.walk_of_monotone`** — literals that all rise or all fall are a walk by magnitudes.
* **`Run.patchedOf?_stores`** — a patched base run stores its literals, when it pays.
* **`Run.ofLiterals_stores`** — the run of a window of 1 to 512 literals stores them. -/

namespace ColumnFile

namespace Run

/-! ## (1) Distances -/

/-- **Literals that keep one distance** are a progression. -/
theorem progression_of_steps {first step : Int64} {rest : List Int64}
    (h : ∀ d ∈ differences (first :: rest), d = step) :
    progression step first (rest.length + 1) = first :: rest := by
  induction rest generalizing first with
  | nil => rfl
  | cons b rest ih =>
      rw [differences] at h
      have hstep : b - first = step := h _ List.mem_cons_self
      have hb : first + step = b := by
        rw [← hstep, Int64.add_comm, Int64.sub_add_cancel]
      rw [List.length_cons, progression, hb, ih fun d hd => h d (List.mem_cons_of_mem _ hd)]

/-- Equal literals are a progression that stands still. -/
theorem progression_of_equal {first : Int64} {rest : List Int64} (h : ∀ v ∈ rest, v = first) :
    progression 0 first (rest.length + 1) = first :: rest := by
  apply progression_of_steps
  induction rest with
  | nil =>
      intro d hd
      cases hd
  | cons b rest ih =>
      have hb : b = first := h b List.mem_cons_self
      rw [differences, hb]
      intro d hd
      rcases List.mem_cons.mp hd with rfl | hd
      · exact Int64.sub_self first
      · exact ih (fun v hv => h v (List.mem_cons_of_mem b hv)) d hd

/-- The magnitude of a step in a known direction gives the step back. -/
theorem step_of_magnitude {d : Int64} (value : Int64) :
    (d ≤ 0 → value - Int64.ofNat d.toInt.natAbs = value + d) ∧
      (0 ≤ d → value + Int64.ofNat d.toInt.natAbs = value + d) := by
  constructor
  · intro h
    have hd : d.toInt ≤ 0 := Int64.le_iff_toInt_le.mp h
    have hneg : Int64.ofNat d.toInt.natAbs = -d := by
      rw [← Int64.ofInt_eq_ofNat, show (d.toInt.natAbs : Int) = -d.toInt by omega, Int64.ofInt_neg,
        Int64.ofInt_toInt]
    rw [hneg, Int64.sub_eq_add_neg, Int64.neg_neg]
  · intro h
    have hd : 0 ≤ d.toInt := Int64.le_iff_toInt_le.mp h
    rw [← Int64.ofInt_eq_ofNat, show (d.toInt.natAbs : Int) = d.toInt by omega, Int64.ofInt_toInt]

/-- **Literals that all rise or all fall** are a walk by the magnitudes of their distances. -/
theorem walk_of_monotone {falling : Bool} {value : Int64} {rest : List Int64}
    (h : ∀ d ∈ differences (value :: rest), if falling then d ≤ 0 else 0 ≤ d) :
    walk falling value ((differences (value :: rest)).map fun d => d.toInt.natAbs) = rest := by
  induction rest generalizing value with
  | nil => rfl
  | cons b rest ih =>
      rw [differences] at h
      have hhead := h (b - value) List.mem_cons_self
      have hb : value + (b - value) = b := by rw [Int64.add_comm, Int64.sub_add_cancel]
      have hnext : (if falling then value - Int64.ofNat (b - value).toInt.natAbs
          else value + Int64.ofNat (b - value).toInt.natAbs) = b := by
        cases falling with
        | true => exact ((step_of_magnitude value).1 hhead).trans hb
        | false => exact ((step_of_magnitude value).2 hhead).trans hb
      rw [differences, List.map_cons, walk, hnext, ih fun d hd => h d (List.mem_cons_of_mem _ hd)]

/-! ## (2) Direct and patched base runs -/

/-- A literal is a word. -/
theorem number_lt (signed : Bool) (v : Int64) : (number signed v).toNat < 2 ^ 64 :=
  UInt64.toNat_lt _

/-- A direct run of as many literals as a window holds stores them. -/
theorem directOf_stores {signed : Bool} {literals : List Int64} (hpos : 0 < literals.length)
    (hmax : literals.length ≤ maxLength) : (directOf signed literals).Stores signed literals := by
  refine ⟨Width.mem_fixedLadder_of_mem_alignedLadder (Width.aligned_mem _), hpos, hmax, ?_, rfl⟩
  intro v hv
  have hmem : (number signed v).toNat ∈ literals.map fun v => (number signed v).toNat :=
    List.mem_map_of_mem hv
  have hcover := Width.covering_mem 0 (literals.map fun v => (number signed v).toNat)
    (by rw [List.length_map]; exact_mod_cast hpos)
  have hle := Width.le_aligned (Width.bounds_of_mem_fixedLadder hcover).2
  exact Nat.lt_of_lt_of_le (Width.lt_two_pow_covering hmem (number_lt signed v))
    (Nat.pow_le_pow_right (by decide) hle)

/-- **A patched base run**, when it pays, stores its literals. -/
theorem patchedOf?_stores {signed : Bool} {least : Int64} {literals : List Int64} {run : Run}
    (h : patchedOf? signed least literals = some run) (hpos : 0 < literals.length)
    (hmax : literals.length ≤ maxLength) : run.Stores signed literals := by
  have h512 : literals.length ≤ 512 := hmax
  unfold patchedOf? at h
  dsimp only at h
  split at h
  · rename_i hpays
    split at h
    · cases h
    · obtain ⟨p, hp, rfl⟩ := Option.map_eq_some_iff.mp h
      generalize habove : (literals.map fun v => (v - least).toUInt64.toNat) = above at hp
      have hlen : above.length = literals.length := by rw [← habove, List.length_map]
      have h64 : ∀ v ∈ above, v < 2 ^ 64 := by
        intro v hv
        rw [← habove] at hv
        obtain ⟨x, -, rfl⟩ := List.mem_map.mp hv
        exact UInt64.toNat_lt _
      have hmost : Width.covering (literals.length / 20 : Nat) above ∈ Width.fixedLadder :=
        Width.covering_mem _ above (by rw [hlen]; exact_mod_cast Nat.div_lt_self hpos (by decide))
      have hevery : Width.covering 0 above ∈ Width.fixedLadder :=
        Width.covering_mem _ above (by rw [hlen]; exact_mod_cast hpos)
      obtain ⟨hfits, hreduced, happly⟩ := Patched.ofValues?_spec hp hmost
        (Width.bounds_of_mem_fixedLadder hevery).2 (by omega)
        (fun v hv => Width.lt_two_pow_covering hv (h64 v hv))
      refine ⟨hfits, by omega, by rw [hreduced, hlen]; exact hmax, hpays.2, above, happly, ?_⟩
      rw [← habove, List.map_map]
      exact (List.map_id'' (fun v => base_add_excess least v) literals).symm
  · cases h

/-- **A delta run** of literals that all rise or all fall stores them. -/
theorem delta_stores {signed : Bool} {first second : Int64} {rest : List Int64}
    (hstep : second - first ≠ 0)
    (hdir : (∀ d ∈ differences (first :: second :: rest), 0 ≤ d) ∨
      ∀ d ∈ differences (first :: second :: rest), d ≤ 0)
    (hmax : (first :: second :: rest).length ≤ maxLength) :
    let magnitudes := (differences (second :: rest)).map fun d => d.toInt.natAbs
    (delta first (second - first) (max 2 (Width.aligned (Width.required (magnitudes.foldl max 0))))
      magnitudes).Stores signed (first :: second :: rest) := by
  intro magnitudes
  have hsecond : first + (second - first) = second := by rw [Int64.add_comm, Int64.sub_add_cancel]
  have hmagnitude : ∀ m ∈ magnitudes, m < 2 ^ 64 := by
    intro m hm
    obtain ⟨d, -, rfl⟩ := List.mem_map.mp hm
    have hlow := d.le_toInt
    have hhigh := d.toInt_lt
    omega
  -- the steps are written with a width in which the greatest of them fits
  have hmost : magnitudes.foldl max 0 < 2 ^ 64 := foldl_max_lt (by decide) hmagnitude
  have hrequired :=
    (Width.bounds_of_mem_fixedLadder (Width.required_mem (magnitudes.foldl max 0))).2
  have haligned := Width.le_aligned hrequired
  have hladder : ∀ w ∈ Width.alignedLadder, max 2 w ∈ Width.fixedLadder := by decide
  refine ⟨hladder _ (Width.aligned_mem _), Nat.le_max_left _ _, ?_, ?_, ?_⟩
  · rw [List.length_map, length_differences]
    exact hmax
  · intro m hm
    calc m ≤ magnitudes.foldl max 0 := (le_foldl_max 0 magnitudes).2 m hm
      _ < 2 ^ Width.required (magnitudes.foldl max 0) := Width.lt_two_pow_required hmost
      _ ≤ 2 ^ max 2 (Width.aligned (Width.required (magnitudes.foldl max 0))) :=
        Nat.pow_le_pow_right (by decide) (by omega)
  · -- the first step shows the direction of all others
    have hhead : second - first ∈ differences (first :: second :: rest) := List.mem_cons_self
    have htail : ∀ d ∈ differences (second :: rest), d ∈ differences (first :: second :: rest) :=
      fun d hd => List.mem_cons_of_mem _ hd
    rw [hsecond, walk_of_monotone]
    intro d hd
    by_cases hneg : second - first < 0
    · rw [decide_eq_true hneg, if_pos rfl]
      rcases hdir with hdir | hdir
      · exact absurd (hdir _ hhead) (Int64.not_le.mpr hneg)
      · exact hdir d (htail d hd)
    · rw [decide_eq_false hneg, if_neg Bool.false_ne_true]
      rcases hdir with hdir | hdir
      · exact hdir d (htail d hd)
      · exact absurd (Int64.le_antisymm (hdir _ hhead) (Int64.not_lt.mp hneg)) hstep

/-! ## (3) The run of a window -/

/-- Between equal bounds all literals are equal. -/
theorem eq_of_bounds_eq {first : Int64} {rest : List Int64}
    (h : (bounds first (first :: rest)).1 = (bounds first (first :: rest)).2) :
    ∀ v ∈ rest, v = first := by
  obtain ⟨-, hleast⟩ := foldl_min_le first (first :: rest)
  obtain ⟨-, hgreatest⟩ := le_foldl_max64 first (first :: rest)
  rw [bounds] at h
  dsimp only at h
  intro v hv
  have hv' := List.mem_cons_of_mem first hv
  have hlow := Int64.le_trans (hgreatest v hv') (h ▸ hleast first List.mem_cons_self)
  have hhigh := Int64.le_trans (hgreatest first List.mem_cons_self) (h ▸ hleast v hv')
  exact Int64.le_antisymm hlow hhigh

/-- **The run of a window** stores the window. -/
theorem ofLiterals_stores (signed : Bool) {literals : List Int64} (hpos : 0 < literals.length)
    (hmax : literals.length ≤ maxLength) : (ofLiterals signed literals).Stores signed literals := by
  -- the list is turned down by each kind of run before the next one is tried
  unfold ofLiterals
  split
  · rename_i first second rest
    split
    · exact directOf_stores hpos hmax
    · generalize hb : bounds first (first :: second :: rest) = b
      obtain ⟨least, greatest⟩ := b
      dsimp only
      split
      · exact directOf_stores hpos hmax
      · split
        · rename_i heq
          refine ⟨hpos, hmax, ?_⟩
          exact (progression_of_equal (eq_of_bounds_eq (by rw [hb]; exact heq))).symm
        · split
          · rename_i hall
            refine ⟨hpos, hmax, (progression_of_steps ?_).symm⟩
            intro d hd
            exact eq_of_beq (List.all_eq_true.mp hall d hd)
          · split
            · rename_i hmono
              obtain ⟨hstep, hdir⟩ := hmono
              rw [List.all_eq_true, List.all_eq_true] at hdir
              exact delta_stores hstep
                (hdir.imp (fun h d hd => of_decide_eq_true (h d hd))
                  (fun h d hd => of_decide_eq_true (h d hd))) hmax
            · generalize hp : patchedOf? signed least (first :: second :: rest) = p
              cases p with
              | none => exact directOf_stores hpos hmax
              | some run => exact patchedOf?_stores hp hpos hmax
  · exact directOf_stores hpos hmax

end Run

end ColumnFile
