import ColumnFile.Bytes

/-! # Ropes

Octets that grow at their end. A rope keeps the pieces that it was joined of, so that a long piece
is shared with whoever else holds it and is not copied as the rope grows. The pieces are the leaves
of trees, and trees of one rank are joined as digits are carried. How octets are cut into pieces can
not be seen: a rope is trees up to their octets.

* `PieceTree`, `Trees` — pieces in a tree, and trees behind each other.
* `Rope` — octets, however they are cut into pieces.
* `Rope.append`, `Rope.ofBytes` — one more piece, and octets that come at once.
* `Rope.toList`, `Rope.size`, `Rope.extract` — reading.
-/

namespace ColumnFile

/-- What lies between two places of two lists, one behind the other: only a list that reaches there
has a part in it. -/
theorem Bytes.extract_append (left right : Bytes) (first last : Nat) :
    (left ++ right).extract first last =
      (if first < left.length then left.extract first last else []) ++
        (if left.length < last then right.extract (first - left.length) (last - left.length)
        else []) := by
  simp only [List.extract_eq_take_drop, List.drop_append, List.take_append, List.length_drop]
  congr 1
  · split
    · rfl
    · rw [List.drop_eq_nil_of_le (by omega), List.take_nil]
  · split
    · congr 1
      omega
    · rw [show last - first - (left.length - first) = 0 by omega, List.take_zero]

/-! ## Trees of pieces -/

/-- A **tree of pieces** that has `n` octets in all. -/
inductive PieceTree : (n : Nat) → Type
  /-- A piece. -/
  | piece (bs : Bytes) : PieceTree bs.length
  /-- The pieces of a tree, and behind them those of another. -/
  | join {m n : Nat} (left : PieceTree m) (right : PieceTree n) : PieceTree (m + n)

namespace PieceTree

/-- The octets of a tree, and others behind them. -/
def onto {n : Nat} : PieceTree n → Bytes → Bytes
  | piece bs, rest => bs ++ rest
  | join left right, rest => left.onto (right.onto rest)

/-- The octets of a tree. -/
def octets {n : Nat} (t : PieceTree n) : Bytes := t.onto []

/-- The octets of a tree come before the rest. -/
theorem onto_eq {n : Nat} (t : PieceTree n) (rest : Bytes) : t.onto rest = t.octets ++ rest := by
  unfold octets
  induction t generalizing rest with
  | piece bs => rw [onto, onto, List.append_nil]
  | join left right ihl ihr => rw [onto, onto, ihr, ihl, ihl (right.onto []), List.append_assoc]

@[simp] theorem octets_piece (bs : Bytes) : (piece bs).octets = bs := List.append_nil bs

@[simp] theorem octets_join {m n : Nat} (left : PieceTree m) (right : PieceTree n) :
    (left.join right).octets = left.octets ++ right.octets := left.onto_eq right.octets

@[simp] theorem length_octets {n : Nat} (t : PieceTree n) : t.octets.length = n := by
  induction t with
  | piece bs => rw [octets_piece]
  | join left right ihl ihr => rw [octets_join, List.length_append, ihl, ihr]

/-- The octets from `first` up to but not including `last`. -/
def extract {n : Nat} : PieceTree n → (first last : Nat) → Bytes
  | piece bs, first, last => bs.extract first last
  | @join m _ left right, first, last =>
    (if first < m then left.extract first last else []) ++
      (if m < last then right.extract (first - m) (last - m) else [])

/-- A part of a tree is that part of its octets. -/
theorem extract_eq {n : Nat} (t : PieceTree n) (first last : Nat) :
    t.extract first last = t.octets.extract first last := by
  induction t generalizing first last with
  | piece bs => rw [extract, octets_piece]
  | join left right ihl ihr =>
    rw [extract, ihl, ihr, octets_join, Bytes.extract_append, length_octets]

end PieceTree

/-- **Trees of pieces** behind each other, each with its rank. -/
inductive Trees
  /-- No tree. -/
  | none
  /-- One more tree behind others. -/
  | snoc (before : Trees) (rank : Nat) {n : Nat} (last : PieceTree n)

namespace Trees

/-- The octets of trees, and others behind them. -/
def onto : Trees → Bytes → Bytes
  | none, rest => rest
  | snoc before _ last, rest => before.onto (last.onto rest)

/-- The octets of trees. -/
def octets (trees : Trees) : Bytes := trees.onto []

/-- The octets of trees come before the rest. -/
theorem onto_eq (trees : Trees) (rest : Bytes) : trees.onto rest = trees.octets ++ rest := by
  unfold octets
  induction trees generalizing rest with
  | none => rfl
  | snoc before rank last ih =>
      rw [onto, onto, ih, ih (last.onto []), last.onto_eq, last.onto_eq, List.append_nil,
        List.append_assoc]

@[simp] theorem octets_none : none.octets = [] := rfl

@[simp] theorem octets_snoc (before : Trees) (rank : Nat) {n : Nat} (last : PieceTree n) :
    (snoc before rank last).octets = before.octets ++ last.octets := before.onto_eq last.octets

/-- How many octets there are. -/
def size : Trees → Nat
  | none => 0
  | @snoc before _ n _ => before.size + n

/-- Trees are as long as their octets. -/
theorem size_eq (trees : Trees) : trees.size = trees.octets.length := by
  induction trees with
  | none => rfl
  | snoc before rank last ih => rw [size, ih, octets_snoc, List.length_append, last.length_octets]

/-- One more tree; trees of one rank are joined to a tree of the next. -/
def push (trees : Trees) (rank : Nat) {n : Nat} (tree : PieceTree n) : Trees :=
  match trees with
  | none => snoc none rank tree
  | snoc before rank' last =>
    if rank' = rank then before.push (rank + 1) (last.join tree)
    else snoc (snoc before rank' last) rank tree

@[simp] theorem octets_push (trees : Trees) (rank : Nat) {n : Nat} (tree : PieceTree n) :
    (trees.push rank tree).octets = trees.octets ++ tree.octets := by
  induction trees generalizing rank n with
  | none => rw [push, octets_snoc]
  | snoc before rank' last ih =>
      rw [push]
      split
      · rw [ih, PieceTree.octets_join, octets_snoc, List.append_assoc]
      · rw [octets_snoc]

/-- The octets from `first` up to but not including `last`. -/
def extract (first last : Nat) : Trees → Bytes
  | none => []
  | snoc before _ tree =>
    (if first < before.size then before.extract first last else []) ++
      (if before.size < last then tree.extract (first - before.size) (last - before.size) else [])

/-- A part of trees is that part of their octets. -/
theorem extract_eq (trees : Trees) (first last : Nat) :
    trees.extract first last = trees.octets.extract first last := by
  induction trees with
  | none => rw [extract, octets_none, List.extract_eq_take_drop, List.drop_nil, List.take_nil]
  | snoc before rank last' ih =>
    rw [extract, ih, size_eq, PieceTree.extract_eq, octets_snoc, Bytes.extract_append]

/-- One more piece for every `width` octets. -/
def cut (width : Nat) : (n : Nat) → Bytes → Trees → Trees
  | 0, bs, trees => trees.push 0 (.piece bs)
  | n + 1, bs, trees => cut width n (bs.drop width) (trees.push 0 (.piece (bs.take width)))

/-- Octets that are cut into trees are behind those that were there. -/
theorem octets_cut (width n : Nat) (bs : Bytes) (trees : Trees) :
    (cut width n bs trees).octets = trees.octets ++ bs := by
  induction n generalizing bs trees with
  | zero => rw [cut, octets_push, PieceTree.octets_piece]
  | succ n ih =>
      rw [cut, ih, octets_push, PieceTree.octets_piece, List.append_assoc, List.take_append_drop]

/-- Trees are not told apart if they have the same octets. -/
instance sameOctets : Setoid Trees where
  r a b := a.octets = b.octets
  iseqv := ⟨fun _ => rfl, Eq.symm, Eq.trans⟩

end Trees

/-! ## Ropes -/

/-- A **rope**: octets, however they are cut into pieces. -/
def Rope : Type := Quotient Trees.sameOctets

namespace Rope

/-- The octets of a rope. -/
def toList : Rope → Bytes := Quotient.lift Trees.octets fun _ _ h => h

/-- **Ropes are their octets**. -/
@[ext] theorem ext {r s : Rope} (h : r.toList = s.toList) : r = s := by
  induction r using Quotient.ind
  induction s using Quotient.ind
  exact Quotient.sound h

/-- Ropes are the same when their octets are. -/
instance : DecidableEq Rope := fun _ _ => decidable_of_iff _ ⟨ext, congrArg toList⟩

/-- A rope is shown as its octets. -/
instance : Repr Rope := ⟨fun r prec => reprPrec r.toList prec⟩

/-- The rope without octets. -/
def empty : Rope := Quotient.mk _ .none

@[simp] theorem toList_empty : empty.toList = [] := rfl

/-- How many octets there are. -/
def size : Rope → Nat :=
  Quotient.lift Trees.size fun a b h => by
    rw [a.size_eq, b.size_eq, show a.octets = b.octets from h]

/-- A rope is as long as its octets. -/
theorem size_eq (r : Rope) : r.size = r.toList.length := by
  induction r using Quotient.ind
  exact Trees.size_eq _

/-- The rope with one more piece. -/
def append (r : Rope) (bs : Bytes) : Rope :=
  Quotient.lift (fun trees => Quotient.mk _ (Trees.push trees 0 (.piece bs)))
    (fun a b h => Quotient.sound <| by
      show (a.push 0 _).octets = (b.push 0 _).octets
      rw [Trees.octets_push, Trees.octets_push, show a.octets = b.octets from h]) r

/-- Octets are put behind a rope. -/
instance : HAppend Rope Bytes Rope := ⟨append⟩

@[simp] theorem toList_append (r : Rope) (bs : Bytes) : (r ++ bs).toList = r.toList ++ bs := by
  induction r using Quotient.ind
  exact (Trees.octets_push _ 0 _).trans (by rw [PieceTree.octets_piece]; rfl)

/-- The octets from `first` up to but not including `last`. -/
def extract (r : Rope) (first last : Nat) : Bytes :=
  Quotient.lift (Trees.extract first last)
    (fun a b h => by rw [a.extract_eq, b.extract_eq, show a.octets = b.octets from h]) r

/-- A part of a rope is that part of its octets. -/
theorem extract_eq (r : Rope) (first last : Nat) :
    r.extract first last = r.toList.extract first last := by
  induction r using Quotient.ind
  exact Trees.extract_eq _ first last

/-- A piece that lies across two of a rope. -/
example : (empty ++ ([1, 2] : Bytes) ++ ([3, 4] : Bytes)).extract 1 3 = [2, 3] := rfl

/-- The longest piece of octets that come at once. -/
def pieceWidth : Nat := 256

/-- The rope of octets that come at once. -/
def ofBytes (bs : Bytes) : Rope :=
  Quotient.mk _ (Trees.cut pieceWidth (bs.length / pieceWidth) bs .none)

@[simp] theorem toList_ofBytes (bs : Bytes) : (ofBytes bs).toList = bs :=
  Trees.octets_cut pieceWidth (bs.length / pieceWidth) bs .none

/-- Octets come back from the rope that they are made into. -/
theorem ofBytes_toList (r : Rope) : ofBytes r.toList = r := ext (toList_ofBytes r.toList)

end Rope

end ColumnFile
