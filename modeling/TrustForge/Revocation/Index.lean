import Mathlib.Data.String.Basic
import TrustForge.Foundation.AssocMap

/-!
# The revocation index

Model of `RevocationIndex`: of several revocations of a target it keeps the one that takes
effect first.  A target counts as revoked at an instant if any of them is in effect.
Timestamps are compared as texts.
-/

namespace TrustForge

open AssocMap

/-- `Revocation_TargetKind`. -/
inductive TargetKind where
  | capability
  | actor
  | delegation
  | actorInstance
  deriving DecidableEq

/-- `Revocation`, as far as the index reads it. -/
structure Revocation where
  targetId : String
  targetKind : TargetKind
  effectiveAt : String

structure RevocationIndex where
  byKind : List (TargetKind × List (String × Revocation))

namespace RevocationIndex

variable (index : RevocationIndex)

/-- The loop of `from_slice`. -/
def add (r : Revocation) : RevocationIndex :=
  let bucket := (get? r.targetKind index.byKind).getD []
  let merged :=
    match get? r.targetId bucket with
    | some existing =>
      if existing.effectiveAt ≤ r.effectiveAt then bucket
      else insert r.targetId r bucket
    | none => insert r.targetId r bucket
  ⟨insert r.targetKind merged index.byKind⟩

variable (revocations : List Revocation)

def fromSlice : RevocationIndex :=
  revocations.foldl add ⟨[]⟩

/-- The revocation of a target. -/
def find (id : String) (kind : TargetKind) : Option Revocation :=
  (get? kind index.byKind).bind (get? id)

def isRevoked (id : String) (kind : TargetKind) (instant : String) :
    Bool :=
  (index.find id kind).any fun rev => rev.effectiveAt ≤ instant

/-- A revocation is in effect for a target. -/
def InEffect (r : Revocation) (id : String) (kind : TargetKind) (instant : String) : Prop :=
  r.targetKind = kind ∧ r.targetId = id ∧ r.effectiveAt ≤ instant

theorem get?_bucket (id : String) (kind : TargetKind) :
    get? id ((get? kind index.byKind).getD []) = index.find id kind := by
  rw [find]
  cases get? kind index.byKind with
  | none | some => rfl

/-- Other targets are left alone. -/
theorem find_add_of_ne {r : Revocation} {id : String}
    {kind : TargetKind} (other : ¬(r.targetKind = kind ∧ r.targetId = id)) :
    (index.add r).find id kind = index.find id kind := by
  rw [find, add, get?_insert]
  by_cases sameKind : r.targetKind = kind
  · have otherId : ¬r.targetId = id := fun same => other ⟨sameKind, same⟩
    rw [if_pos sameKind, Option.bind_some, ← get?_bucket, sameKind]
    split
    · split_ifs
      · rfl
      · rw [get?_insert, if_neg otherId]
    · rw [get?_insert, if_neg otherId]
  · rw [if_neg sameKind]
    rfl

/-- Of two revocations of a target, the one that takes effect first. -/
def earlier : Option Revocation → Revocation → Revocation
  | some existing, r => if existing.effectiveAt ≤ r.effectiveAt then existing else r
  | none, r => r

theorem find_add_self (r : Revocation) : (index.add r).find r.targetId r.targetKind =
      some (earlier (index.find r.targetId r.targetKind) r) := by
  rw [find, add, get?_insert, if_pos rfl, Option.bind_some]
  simp only [get?_bucket]
  cases known : index.find r.targetId r.targetKind with
  | none => exact (get?_insert _ _ _ _).trans (if_pos rfl)
  | some existing =>
    by_cases before : existing.effectiveAt ≤ r.effectiveAt
    · simp only [earlier, if_pos before, get?_bucket, known]
    · simp [earlier, if_neg before, get?_insert]

/-- One more revocation adds what it revokes, and takes nothing away. -/
theorem isRevoked_add_iff (r : Revocation) (id : String) (kind : TargetKind) (instant : String) :
    (index.add r).isRevoked id kind instant = true ↔
      index.isRevoked id kind instant = true ∨ InEffect r id kind instant := by
  by_cases target : r.targetKind = kind ∧ r.targetId = id
  · rcases target with ⟨sameKind, sameId⟩
    subst sameKind sameId
    rw [isRevoked, isRevoked, find_add_self, InEffect]
    cases index.find r.targetId r.targetKind with
    | none => simp [earlier]
    | some existing =>
      by_cases before : existing.effectiveAt ≤ r.effectiveAt
      · simp only [earlier, if_pos before, Option.any_some, decide_eq_true_eq, true_and]
        exact (or_iff_left_of_imp before.trans).symm
      · simp only [earlier, if_neg before, Option.any_some, decide_eq_true_eq, true_and]
        exact (or_iff_right_of_imp (le_of_not_ge before).trans).symm
  · rw [isRevoked, isRevoked, find_add_of_ne index target]
    exact (or_iff_left fun effect => target ⟨effect.1, effect.2.1⟩).symm

theorem isRevoked_foldl_iff (index : RevocationIndex)
    (id : String) (kind : TargetKind) (instant : String) :
    (revocations.foldl add index).isRevoked id kind instant = true ↔
      index.isRevoked id kind instant = true ∨
        ∃ r ∈ revocations, InEffect r id kind instant := by
  induction revocations generalizing index with
  | nil => simp
  | cons r revocations ih =>
    rw [List.foldl_cons, ih, isRevoked_add_iff, List.exists_mem_cons_iff, or_assoc]

/-- The index answers for all the revocations it was built from. -/
theorem isRevoked_fromSlice_iff (id : String) (kind : TargetKind) (instant : String) :
    (fromSlice revocations).isRevoked id kind instant = true ↔
      ∃ r ∈ revocations, InEffect r id kind instant := by
  rw [fromSlice, isRevoked_foldl_iff]
  exact or_iff_right Bool.false_ne_true

/-- The index of two lists answers as the two indexes together, so neither order nor repetition
matters. -/
theorem isRevoked_fromSlice_append (left right : List Revocation) (id : String) (kind : TargetKind)
    (instant : String) :
    (fromSlice (left ++ right)).isRevoked id kind instant =
      ((fromSlice left).isRevoked id kind instant ||
        (fromSlice right).isRevoked id kind instant) := by
  rw [Bool.eq_iff_iff, Bool.or_eq_true]
  simp only [isRevoked_fromSlice_iff, List.mem_append, or_and_right, exists_or]

end RevocationIndex

end TrustForge
