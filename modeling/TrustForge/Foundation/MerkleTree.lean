import Mathlib.Data.List.Basic

/-!
# Merkle trees with duplicated nodes

A row of nodes is reduced level by level: neighbours are combined, and the last node of an
odd level is combined with itself.  The same reduction that hashes builds the tree it
hashes, so that roots are evaluations of trees, and what a root commits to is the tree.
-/

namespace TrustForge.MerkleTree

open List

variable {α β : Type}

/-! ## Reducing rows -/

/-- One level up. -/
def pairUp (combine : α → α → α) : List α → List α
  | [] => []
  | [a] => [combine a a]
  | a :: b :: rest => combine a b :: pairUp combine rest

/-- Levels until one node is left.  The fuel bounds their number. -/
def reduce (combine : α → α → α) : Nat → List α → List α
  | 0, level => level
  | fuel + 1, level =>
    if 1 < level.length then reduce combine fuel (pairUp combine level) else level

/-- The node that is left of a row. -/
def root? (combine : α → α → α) (leaves : List α) : Option α :=
  (reduce combine leaves.length leaves).head?

variable (combine : α → α → α)

theorem length_pairUp (level : List α) :
    (pairUp combine level).length = (level.length + 1) / 2 := by
  induction level using pairUp.induct with
  | case1 | case2 => simp [pairUp]
  | case3 a b rest ih =>
    simp only [pairUp, length_cons]
    omega

/-- Enough fuel leaves one node. -/
theorem length_reduce {fuel : Nat} {level : List α} (enough : level.length ≤ fuel + 1)
    (some : level ≠ []) : (reduce combine fuel level).length = 1 := by
  have positive := length_pos_iff.mpr some
  induction fuel generalizing level with
  | zero => exact Nat.le_antisymm enough positive
  | succ fuel ih =>
    rw [reduce]
    split
    · have next := length_pairUp combine level
      have left : 0 < (pairUp combine level).length := by omega
      exact ih (by omega) (ne_nil_of_length_pos left) left
    · omega

theorem exists_root {leaves : List α} (some : leaves ≠ []) :
    ∃ root, reduce combine leaves.length leaves = [root] :=
  length_eq_one_iff.mp (length_reduce combine (Nat.le_succ _) some)

theorem root?_eq_none_iff (leaves : List α) : root? combine leaves = none ↔ leaves = [] := by
  constructor
  · intro missing
    by_contra some
    obtain ⟨root, equal⟩ := exists_root combine some
    rw [root?, equal] at missing
    contradiction
  · rintro rfl
    rfl

variable {combine : α → α → α}

/-- A map that takes one combination to another takes levels to levels. -/
theorem map_pairUp {f : α → β} {combine' : β → β → β}
    (hom : ∀ a b, f (combine a b) = combine' (f a) (f b)) (level : List α) :
    (pairUp combine level).map f = pairUp combine' (level.map f) := by
  induction level using pairUp.induct with
  | case1 => rfl
  | case2 a => simp [pairUp, hom]
  | case3 a b rest ih => simp [pairUp, hom, ih]

theorem map_reduce {f : α → β} {combine' : β → β → β}
    (hom : ∀ a b, f (combine a b) = combine' (f a) (f b)) (fuel : Nat) (level : List α) :
    (reduce combine fuel level).map f = reduce combine' fuel (level.map f) := by
  induction fuel generalizing level with
  | zero => rfl
  | succ fuel ih =>
    rw [reduce, reduce, length_map]
    split
    · rw [ih, map_pairUp hom]
    · rfl

/-! ## Rows of one length -/

variable {left right : List α}

section

variable {combine : α → α → α}
  (injective : ∀ a b c d, combine a b = combine c d → a = c ∧ b = d)

include injective

theorem pairUp_injective (lengths : left.length = right.length)
    (same : pairUp combine left = pairUp combine right) : left = right := by
  induction left using pairUp.induct generalizing right with
  | case1 => exact (length_eq_zero_iff.mp lengths.symm).symm
  | case2 a =>
    obtain ⟨b, rfl⟩ := length_eq_one_iff.mp lengths.symm
    rw [(injective a a b b (head_eq_of_cons_eq same)).1]
  | case3 a b rest ih =>
    rcases right with _ | ⟨c, _ | ⟨d, others⟩⟩
    · contradiction
    · simp at lengths
    · obtain ⟨first, second⟩ := injective a b c d (head_eq_of_cons_eq same)
      have later := ih (by simpa using lengths) (tail_eq_of_cons_eq same)
      rw [first, second, later]

theorem reduce_injective {fuel : Nat} (lengths : left.length = right.length)
    (same : reduce combine fuel left = reduce combine fuel right) : left = right := by
  induction fuel generalizing left right with
  | zero => exact same
  | succ fuel ih =>
    rw [reduce, reduce, ← lengths] at same
    split at same
    · refine pairUp_injective injective lengths (ih ?_ same)
      rw [length_pairUp, length_pairUp, lengths]
    · exact same

end

/-! ## Trees -/

/-- A tree, before anything is combined. -/
inductive Tree (α : Type) where
  | leaf (value : α)
  | node (left right : Tree α)

namespace Tree

/-- The value of the root. -/
def eval (combine : α → α → α) : Tree α → α
  | leaf value => value
  | node left right => combine (left.eval combine) (right.eval combine)

/-- The pairs that are combined. -/
def pairs (combine : α → α → α) : Tree α → List (α × α)
  | leaf _ => []
  | node left right =>
    (left.eval combine, right.eval combine) :: (left.pairs combine ++ right.pairs combine)

def leaves : Tree α → List α
  | leaf value => [value]
  | node left right => left.leaves ++ right.leaves

/-- The tree of a row, unless it is empty. -/
def ofLeaves (row : List α) : Option (Tree α) :=
  root? node (row.map leaf)

/-- The root is the value of the tree. -/
theorem root?_eq_eval (row : List α) : root? combine row = (ofLeaves row).map (eval combine) := by
  have rows : (reduce node row.length (row.map leaf)).map (eval combine) =
      reduce combine row.length ((row.map leaf).map (eval combine)) :=
    map_reduce (fun _ _ => rfl) row.length (row.map leaf)
  have values : (row.map leaf).map (eval combine) = row := by
    rw [map_map]
    exact map_id row
  rw [root?, ofLeaves, root?, ← List.head?_map, length_map, rows, values]

theorem leaf_injective : Function.Injective (leaf : α → Tree α) := by
  rintro _ _ ⟨⟩
  rfl

/-- Rows of one length are told apart by their trees. -/
theorem ofLeaves_injective (lengths : left.length = right.length)
    (same : ofLeaves left = ofLeaves right) : left = right := by
  have nodes : ∀ a b c d : Tree α, node a b = node c d → a = c ∧ b = d := by
    rintro _ _ _ _ ⟨⟩
    exact ⟨rfl, rfl⟩
  by_cases empty : left = []
  · rw [empty, length_nil] at lengths
    rw [empty, length_eq_zero_iff.mp lengths.symm]
  · have more : right ≠ [] := by
      rintro rfl
      exact empty (length_eq_zero_iff.mp lengths)
    obtain ⟨tree, leftRoot⟩ := exists_root node (mt map_eq_nil_iff.mp empty)
    obtain ⟨other, rightRoot⟩ := exists_root node (mt map_eq_nil_iff.mp more)
    rw [ofLeaves, ofLeaves, root?, root?, leftRoot, rightRoot] at same
    cases Option.some.inj same
    rw [length_map] at leftRoot rightRoot
    rw [← lengths, ← leftRoot] at rightRoot
    apply map_injective_iff.mpr leaf_injective
    exact reduce_injective nodes (by simpa using lengths) rightRoot.symm

/-- The leaves of the tree are those of the row, some of them more than once. -/
theorem mem_of_mem_leaves {row : List α} {tree : Tree α} (built : ofLeaves row = some tree)
    {value : α} (member : value ∈ tree.leaves) : value ∈ row := by
  have level (below : List (Tree α)) (inside : ∀ t ∈ below, ∀ v ∈ t.leaves, v ∈ row) :
      ∀ t ∈ pairUp node below, ∀ v ∈ t.leaves, v ∈ row := by
    induction below using pairUp.induct with
    | case1 => exact inside
    | case2 a => simpa [pairUp, leaves] using inside
    | case3 a b rest ih =>
      simp only [forall_mem_cons] at inside
      simp only [pairUp, forall_mem_cons, leaves, forall_mem_append]
      exact ⟨⟨inside.1, inside.2.1⟩, ih inside.2.2⟩
  have levels (fuel : Nat) (below : List (Tree α)) (inside : ∀ t ∈ below, ∀ v ∈ t.leaves, v ∈ row) :
      ∀ t ∈ reduce node fuel below, ∀ v ∈ t.leaves, v ∈ row := by
    induction fuel generalizing below with
    | zero => exact inside
    | succ fuel ih =>
      rw [reduce]
      split
      · exact ih _ (level below inside)
      · exact inside
  refine levels _ (row.map leaf) ?_ tree (mem_of_mem_head? built) value member
  simp [leaves]

section

variable {combine : α → α → α}

/-- Every property of the leaves that combining gives again holds of the values. -/
theorem eval_of_leaves {P : α → Prop} (closed : ∀ a b, P (combine a b)) {tree : Tree α}
    (holds : ∀ value ∈ tree.leaves, P value) : P (tree.eval combine) := by
  cases tree with
  | leaf value => exact holds value mem_cons_self
  | node left right => exact closed _ _

theorem pairs_of_leaves {P : α → Prop} (closed : ∀ a b, P (combine a b)) {tree : Tree α}
    (holds : ∀ value ∈ tree.leaves, P value) :
    ∀ pair ∈ tree.pairs combine, P pair.1 ∧ P pair.2 := by
  induction tree with
  | leaf value => simp [pairs]
  | node left right ihLeft ihRight =>
    rw [leaves, forall_mem_append] at holds
    rw [pairs, forall_mem_cons, forall_mem_append]
    exact ⟨⟨eval_of_leaves closed holds.1, eval_of_leaves closed holds.2⟩, ihLeft holds.1,
      ihRight holds.2⟩

end

/-- Trees without collisions, in which no leaf looks like an inner node, are told apart by
their roots. -/
theorem eval_injective {tree other : Tree α}
    (collisionFree : ∀ pair ∈ tree.pairs combine, ∀ pair' ∈ other.pairs combine,
      combine pair.1 pair.2 = combine pair'.1 pair'.2 → pair = pair')
    (apart : ∀ value ∈ tree.leaves, ∀ pair ∈ other.pairs combine, value ≠ combine pair.1 pair.2)
    (apart' : ∀ value ∈ other.leaves, ∀ pair ∈ tree.pairs combine, value ≠ combine pair.1 pair.2)
    (same : tree.eval combine = other.eval combine) : tree = other := by
  induction tree generalizing other with
  | leaf value =>
    cases other with
    | leaf value' => rw [leaf.injEq]; exact same
    | node left' right' =>
      exact absurd same (apart value mem_cons_self _ mem_cons_self)
  | node left right ihLeft ihRight =>
    cases other with
    | leaf value' =>
      exact absurd same.symm (apart' value' mem_cons_self _ mem_cons_self)
    | node left' right' =>
      have pair := collisionFree _ mem_cons_self _ mem_cons_self same
      obtain ⟨sameLeft, sameRight⟩ := Prod.mk.injEq _ _ _ _ ▸ pair
      simp only [pairs, leaves, forall_mem_cons, forall_mem_append]
        at collisionFree apart apart'
      have lefts : left = left' :=
        ihLeft (fun p inside q outside => (collisionFree.2.1 p inside).2.1 q outside)
          (fun v inside q outside => (apart.1 v inside).2.1 q outside)
          (fun v inside q outside => (apart'.1 v inside).2.1 q outside) sameLeft
      have rights : right = right' :=
        ihRight (fun p inside q outside => (collisionFree.2.2 p inside).2.2 q outside)
          (fun v inside q outside => (apart.2 v inside).2.2 q outside)
          (fun v inside q outside => (apart'.2 v inside).2.2 q outside) sameRight
      rw [lefts, rights]

end Tree

end TrustForge.MerkleTree
