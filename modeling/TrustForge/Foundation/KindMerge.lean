import Mathlib.Data.List.Basic
import Mathlib.Logic.Basic

/-!
# Merging lists by kind

A list of tagged items is merged into another by looking, for each new item, for
the first item of the same kind: when there is one the two are combined in
place, otherwise the new item is appended.

The result splits by kind.  Within one kind the first item absorbs every item of
the second list, and the remaining items of the first list are untouched.
-/

namespace TrustForge.KindMerge

open Option List

variable {α κ : Type} [DecidableEq κ]
variable (kind : α → κ) (combine : α → α → α)

/-- Merge one new item into the list built so far. -/
def absorb (out : List α) (item : α) : List α :=
  match out.findIdx? (fun c => kind c = kind item) with
  | some i => out.modify i (combine · item)
  | none => out ++ [item]

/-- Merge every item of the second list, in order. -/
def merge (left right : List α) : List α :=
  right.foldl (absorb kind combine) left

/-- The items of one kind, in order. -/
def ofKind (k : κ) (items : List α) : List α :=
  items.filter fun c => kind c = k

/-- The item that absorbs the others of its kind. -/
def leading (k : κ) (left right : List α) : Option α :=
  (ofKind kind k left ++ ofKind kind k right).head?

/-- The items of the second list that disappear into the leading one. -/
def absorbed (k : κ) (left right : List α) : List α :=
  if ofKind kind k left = [] then (ofKind kind k right).tail else ofKind kind k right

/-- The items of the first list that stay beside the leading one. -/
def bystanders (k : κ) (left : List α) : List α :=
  (ofKind kind k left).tail

/-! ## One item -/

private theorem absorb_nil (item : α) : absorb kind combine [] item = [item] := rfl

private theorem absorb_cons (first : α) (rest : List α) (item : α) :
    absorb kind combine (first :: rest) item =
      if kind first = kind item then combine first item :: rest
      else first :: absorb kind combine rest item := by
  by_cases same : kind first = kind item
  · simp [absorb, List.findIdx?_cons, same]
  · simp only [absorb, List.findIdx?_cons, same]
    cases found : rest.findIdx? fun c => decide (kind c = kind item) with
    | none | some => simp

variable {kind combine}
variable (combine_kind : ∀ x y, kind x = kind y → kind (combine x y) = kind x)

include combine_kind in
/-- Merging one item touches only its own kind. -/
theorem ofKind_absorb (k : κ) (out : List α) (item : α) :
    ofKind kind k (absorb kind combine out item) =
      if kind item = k then absorb kind combine (ofKind kind k out) item
      else ofKind kind k out := by
  induction out with
  | nil => by_cases own : kind item = k <;> simp [absorb_nil, ofKind, own]
  | cons first rest ih =>
    rw [absorb_cons]
    by_cases same : kind first = kind item
    · have stays := combine_kind first item same
      by_cases own : kind item = k
      · simp [ofKind, same, own, stays, absorb_cons]
      · simp [ofKind, same, own, stays]
    · by_cases own : kind item = k
      · have other : kind first ≠ k := fun equal => same (equal.trans own.symm)
        simp only [same, ↓reduceIte]
        simp only [ofKind, own, ↓reduceIte, filter_cons, other, decide_false,
          Bool.false_eq_true] at ih ⊢
        exact ih
      · simp only [same, ↓reduceIte]
        simp only [ofKind, own, ↓reduceIte, filter_cons] at ih ⊢
        rw [ih]

/-! ## Whole lists -/

include combine_kind in
theorem ofKind_merge (k : κ) (left right : List α) :
    ofKind kind k (merge kind combine left right) =
      merge kind combine (ofKind kind k left) (ofKind kind k right) := by
  induction right generalizing left with
  | nil => rfl
  | cons item rest ih =>
    change ofKind kind k (merge kind combine (absorb kind combine left item) rest) = _
    rw [ih, ofKind_absorb combine_kind]
    by_cases own : kind item = k
    · simp [ofKind, own, merge]
    · simp [ofKind, own]

include combine_kind in
/-- Among items of one kind the first absorbs all the new ones. -/
theorem merge_sameKind (k : κ) (first : α) (rest right : List α)
    (firstKind : kind first = k) (rightKind : ∀ item ∈ right, kind item = k) :
    merge kind combine (first :: rest) right = right.foldl combine first :: rest := by
  induction right generalizing first with
  | nil => rfl
  | cons item tail ih =>
    have itemKind := rightKind item (by simp)
    have tailKind : ∀ x ∈ tail, kind x = k := fun x member => rightKind x (by simp [member])
    have same : kind first = kind item := firstKind.trans itemKind.symm
    change merge kind combine (absorb kind combine (first :: rest) item) tail = _
    rw [absorb_cons, if_pos same]
    exact ih (combine first item) ((combine_kind first item same).trans firstKind) tailKind

private theorem kind_of_mem_ofKind (k : κ) (items : List α) (item : α)
    (member : item ∈ ofKind kind k items) : kind item = k := by
  simpa using (mem_filter.mp member).2

include combine_kind in
/-- The merged items of one kind: the leading item with everything it absorbed,
then the bystanders. -/
theorem ofKind_merge_eq (k : κ) (left right : List α) :
    ofKind kind k (merge kind combine left right) =
      ((leading kind k left right).map
        fun first => (absorbed kind k left right).foldl combine first).toList ++
        bystanders kind k left := by
  rw [ofKind_merge combine_kind]
  cases leftGroup : ofKind kind k left with
  | cons first rest =>
    have firstKind : kind first = k :=
      kind_of_mem_ofKind k left first (by simp [leftGroup])
    rw [merge_sameKind combine_kind k first rest _ firstKind
      fun item member => kind_of_mem_ofKind k right item member]
    simp [leading, absorbed, bystanders, leftGroup]
  | nil =>
    cases rightGroup : ofKind kind k right with
    | nil => simp [leading, bystanders, leftGroup, rightGroup, merge]
    | cons first rest =>
      have firstKind : kind first = k :=
        kind_of_mem_ofKind k right first (by simp [rightGroup])
      have restKind : ∀ item ∈ rest, kind item = k := fun item member =>
        kind_of_mem_ofKind k right item (by simp [rightGroup, member])
      change merge kind combine [first] rest = _
      rw [merge_sameKind combine_kind k first [] rest firstKind restKind]
      simp [leading, absorbed, bystanders, leftGroup, rightGroup]

/-- Before merging, the items of one kind are the same three groups. -/
theorem mem_groups_iff (kind : α → κ) (k : κ) (left right : List α) (item : α) :
    (item ∈ ofKind kind k left ∨ item ∈ ofKind kind k right) ↔
      item ∈ (leading kind k left right).toList ∨
        item ∈ absorbed kind k left right ∨ item ∈ bystanders kind k left := by
  cases leftGroup : ofKind kind k left with
  | cons first rest =>
    simp only [leading, absorbed, bystanders, leftGroup, cons_append, List.head?_cons,
      toList_some, mem_cons]
    tauto
  | nil =>
    cases rightGroup : ofKind kind k right with
    | nil => simp [leading, absorbed, bystanders, leftGroup, rightGroup]
    | cons first rest =>
      simp [leading, absorbed, bystanders, leftGroup, rightGroup]

/-- The leading item and everything it absorbs are of the kind in question. -/
theorem kind_of_mem_leading (kind : α → κ) (k : κ) (left right : List α) (first : α)
    (lead : first ∈ leading kind k left right) : kind first = k := by
  have member : first ∈ ofKind kind k left ∨ first ∈ ofKind kind k right := by
    rw [mem_groups_iff]
    exact .inl (mem_toList.mpr lead)
  rcases member with inLeft | inRight
  · exact kind_of_mem_ofKind k left first inLeft
  · exact kind_of_mem_ofKind k right first inRight

theorem kind_of_mem_absorbed (kind : α → κ) (k : κ) (left right : List α) (item : α)
    (gone : item ∈ absorbed kind k left right) : kind item = k := by
  have member : item ∈ ofKind kind k left ∨ item ∈ ofKind kind k right := by
    rw [mem_groups_iff]
    exact .inr (.inl gone)
  rcases member with inLeft | inRight
  · exact kind_of_mem_ofKind k left item inLeft
  · exact kind_of_mem_ofKind k right item inRight

/-- Nothing is absorbed unless something leads. -/
theorem exists_leading_of_mem_absorbed (kind : α → κ) (k : κ) (left right : List α) (item : α)
    (gone : item ∈ absorbed kind k left right) :
    ∃ first, first ∈ leading kind k left right := by
  cases leftGroup : ofKind kind k left with
  | cons first rest => exact ⟨first, by simp [leading, leftGroup]⟩
  | nil =>
    cases rightGroup : ofKind kind k right with
    | nil => simp [absorbed, rightGroup] at gone
    | cons first rest => exact ⟨first, by simp [leading, leftGroup, rightGroup]⟩

/-! ## Conjunctions over a list -/

/-- A property of every item is a property of every item of every kind. -/
theorem forall_iff_forall_ofKind (kind : α → κ) (items : List α) (holds : α → Prop) :
    (∀ item ∈ items, holds item) ↔ ∀ k, ∀ item ∈ ofKind kind k items, holds item := by
  constructor
  · intro every k item member
    exact every item (mem_filter.mp member).1
  · intro every item member
    exact every (kind item) item (mem_filter.mpr ⟨member, by simp⟩)

include combine_kind in
/-- What the merged list asserts, kind by kind. -/
theorem forall_merge_iff (left right : List α) (holds : α → Prop) :
    (∀ item ∈ merge kind combine left right, holds item) ↔
      ∀ k, (∀ first ∈ leading kind k left right,
          holds ((absorbed kind k left right).foldl combine first)) ∧
        ∀ item ∈ bystanders kind k left, holds item := by
  rw [forall_iff_forall_ofKind kind]
  refine forall_congr' fun k => ?_
  rw [ofKind_merge_eq combine_kind]
  cases leading kind k left right with
  | none | some => simp

/-- What the two lists assert together, kind by kind. -/
theorem forall_both_iff (kind : α → κ) (left right : List α) (holds : α → Prop) :
    ((∀ item ∈ left, holds item) ∧ ∀ item ∈ right, holds item) ↔
      ∀ k, (∀ first ∈ leading kind k left right, holds first) ∧
        (∀ item ∈ absorbed kind k left right, holds item) ∧
        ∀ item ∈ bystanders kind k left, holds item := by
  rw [forall_iff_forall_ofKind kind left, forall_iff_forall_ofKind kind right, ← forall_and]
  refine forall_congr' fun k => ?_
  have groups := mem_groups_iff kind k left right
  constructor
  · intro both
    rcases both with ⟨inLeft, inRight⟩
    have either : ∀ item, item ∈ ofKind kind k left ∨ item ∈ ofKind kind k right →
        holds item := fun item member => member.elim (inLeft item) (inRight item)
    refine ⟨fun first member => ?_, fun item member => ?_, fun item member => ?_⟩
    · exact either first ((groups first).mpr (.inl (mem_toList.mpr member)))
    · exact either item ((groups item).mpr (.inr (.inl member)))
    · exact either item ((groups item).mpr (.inr (.inr member)))
  · intro both
    rcases both with ⟨first, rest, beside⟩
    have each : ∀ item, item ∈ ofKind kind k left ∨ item ∈ ofKind kind k right →
        holds item := by
      intro item member
      rcases (groups item).mp member with lead | gone | stays
      · exact first item (mem_toList.mp lead)
      · exact rest item gone
      · exact beside item stays
    exact ⟨fun item member => each item (.inl member),
      fun item member => each item (.inr member)⟩

end TrustForge.KindMerge
