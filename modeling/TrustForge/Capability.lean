import Mathlib.Data.String.Basic
import TrustForge.Foundation.KindMerge
import TrustForge.Glob

/-!
# Capability constraints

Model of `capability.rs`: evaluation of a constraint set against a runtime
context, and the merge of two constraint sets used along a delegation chain.

The merge is meant to be conjunction.  It is exact for time windows, quantities,
rates and quorums.  Sessions, approvals and device bindings keep the earlier
constraint only, and target pattern lists are intersected as sets of strings
with a union as fallback; `MergeExact` says for which contexts this still means
the conjunction.
-/

namespace TrustForge.Capability

open KindMerge List

/-- `ApprovalRequirement` of the generated schema types. -/
inductive ApprovalRequirement where
  | none
  | conditional
  | required
  | quorum
  deriving Repr, DecidableEq

/-- `Constraint`, discriminated by `kind` on the wire. -/
inductive Constraint where
  | timeWindow (fromTs : Option String) (untilTs : String)
  | target (patterns : List String)
  | quantity (max : Int) (unit : Option String)
  | rate (maxPerWindow windowSeconds : Int)
  | session (sessionId : String)
  | approval (approval : ApprovalRequirement)
  | quorum (quorum : Int) (of : List String)
  | deviceBinding (deviceActor : String)
  deriving Repr, DecidableEq

/-- The runtime facts a constraint set is evaluated against. -/
structure EvalContext where
  now : String
  sessionId : Option String
  target : Option String
  approverCount : Option UInt32
  deviceActor : Option String
  deriving Repr, DecidableEq

/-- `satisfies`.  Quantities and rates need an external counter and pass here. -/
def satisfies (c : Constraint) (ctx : EvalContext) : Bool :=
  match c with
  | .timeWindow fromTs untilTs =>
    match fromTs with
    | some ts => !decide (ctx.now < ts) && decide (ctx.now ≤ untilTs)
    | none => decide (ctx.now ≤ untilTs)
  | .target patterns =>
    match ctx.target with
    | some t => patterns.any fun p => globMatch p t
    | none => false
  | .quantity _ _ => true
  | .rate _ _ => true
  | .session sessionId => ctx.sessionId == some sessionId
  | .approval approval => approval == .none || approval == .conditional
  | .quorum quorum _ => decide (quorum ≤ ((ctx.approverCount.getD 0).toNat : Int))
  | .deviceBinding deviceActor => ctx.deviceActor == some deviceActor

def constraintsSatisfied (constraints : List Constraint) (ctx : EvalContext) : Bool :=
  constraints.all fun c => satisfies c ctx

/-- The constraint kinds that `same_kind` compares. -/
inductive Kind where
  | timeWindow | target | quantity | rate | session | approval | quorum | deviceBinding
  deriving Repr, DecidableEq

def Constraint.kind : Constraint → Kind
  | .timeWindow _ _ => .timeWindow
  | .target _ => .target
  | .quantity _ _ => .quantity
  | .rate _ _ => .rate
  | .session _ => .session
  | .approval _ => .approval
  | .quorum _ _ => .quorum
  | .deviceBinding _ => .deviceBinding

def pickLater : Option String → Option String → Option String
  | none, none => none
  | some x, none => some x
  | none, some y => some y
  | some x, some y => some (if x > y then x else y)

def pickEarlier (a b : String) : String :=
  if a < b then a else b

/-- The target branch of `intersect_same`: the patterns listed on both sides, or
all patterns of both sides when there is no such pattern. -/
def intersectPatterns (ap bp : List String) : List String :=
  let shared := ap.filter fun p => bp.contains p
  if shared.isEmpty then ap ++ bp else shared

/-- `intersect_same`.  The last case also takes two sessions, approvals or device
bindings. -/
def intersectSame : Constraint → Constraint → Constraint
  | .timeWindow af au, .timeWindow bf bu => .timeWindow (pickLater af bf) (pickEarlier au bu)
  | .target ap, .target bp => .target (intersectPatterns ap bp)
  | .quantity am au, .quantity bm bu => .quantity (min am bm) (au.or bu)
  | .rate am aw, .rate bm bw => .rate (min am bm) (min aw bw)
  | .quorum aq ao, .quorum bq _ => .quorum (max aq bq) ao
  | a, _ => a

/-- `intersect_constraints`: each constraint of `b` goes into the first
constraint of its kind, or to the end of the list. -/
def intersectConstraints (a b : List Constraint) : List Constraint :=
  merge Constraint.kind intersectSame a b

theorem constraintsSatisfied_iff (constraints : List Constraint) (ctx : EvalContext) :
    constraintsSatisfied constraints ctx = true ↔
      ∀ c ∈ constraints, satisfies c ctx = true := by
  simp [constraintsSatisfied]

theorem intersectSame_kind (a b : Constraint) (_ : a.kind = b.kind) :
    (intersectSame a b).kind = a.kind := by
  cases a <;> cases b <;> rfl

/-! ## Merging one kind -/

/-- The kinds whose merge rule is exact. -/
def Kind.exact : Kind → Bool
  | .timeWindow | .quantity | .rate | .quorum => true
  | .target | .session | .approval | .deviceBinding => false

/-- The kinds whose merge keeps the earlier constraint and discards the later. -/
def Kind.keepsFirst : Kind → Bool
  | .session | .approval | .deviceBinding => true
  | .timeWindow | .quantity | .rate | .quorum | .target => false

private theorem not_lt_pickLater (now x y : String) :
    (¬now < if x > y then x else y) ↔ ¬now < x ∧ ¬now < y := by
  by_cases later : x > y
  · simp only [later]
    exact ⟨fun le => ⟨le, later.le.trans le⟩, And.left⟩
  · simp only [later]
    exact ⟨fun le => ⟨(not_lt.mp later).trans le, le⟩, And.right⟩

private theorem le_pickEarlier (now x y : String) :
    now ≤ pickEarlier x y ↔ now ≤ x ∧ now ≤ y := by
  unfold pickEarlier
  by_cases earlier : x < y
  · simp only [earlier]
    exact ⟨fun le => ⟨le, le.trans earlier.le⟩, And.left⟩
  · simp only [earlier]
    exact ⟨fun le => ⟨le.trans (not_lt.mp earlier), le⟩, And.right⟩

/-- One exact merge step is conjunction. -/
theorem satisfies_intersectSame_of_exact (a b : Constraint) (ctx : EvalContext)
    (same : a.kind = b.kind) (exact : a.kind.exact = true) :
    satisfies (intersectSame a b) ctx = true ↔
      satisfies a ctx = true ∧ satisfies b ctx = true := by
  cases a <;> cases b <;> simp only [Constraint.kind, reduceCtorEq] at same <;>
    simp only [Constraint.kind, Kind.exact, Bool.false_eq_true] at exact
  case timeWindow.timeWindow af au bf bu =>
    cases af <;> cases bf <;>
      simp only [intersectSame, pickLater, satisfies, Bool.and_eq_true, Bool.not_eq_true',
        decide_eq_false_iff_not, decide_eq_true_eq, not_lt_pickLater, le_pickEarlier] <;>
      tauto
  case quantity.quantity => simp [intersectSame, satisfies]
  case rate.rate => simp [intersectSame, satisfies]
  case quorum.quorum => simp [intersectSame, satisfies]

theorem satisfies_foldl_of_exact (first : Constraint) (rest : List Constraint) (ctx : EvalContext)
    (same : ∀ c ∈ rest, c.kind = first.kind) (exact : first.kind.exact = true) :
    satisfies (rest.foldl intersectSame first) ctx = true ↔
      satisfies first ctx = true ∧ ∀ c ∈ rest, satisfies c ctx = true := by
  induction rest generalizing first with
  | nil => simp
  | cons c rest ih =>
    have sameHead : first.kind = c.kind := (same c (by simp)).symm
    have stays := intersectSame_kind first c sameHead
    have sameTail : ∀ x ∈ rest, x.kind = (intersectSame first c).kind := fun x member =>
      (same x (by simp [member])).trans stays.symm
    rw [foldl_cons, ih _ sameTail (stays ▸ exact),
      satisfies_intersectSame_of_exact first c ctx sameHead exact, forall_mem_cons, and_assoc]

theorem foldl_of_keepsFirst (first : Constraint) (rest : List Constraint)
    (keeps : first.kind.keepsFirst = true) :
    rest.foldl intersectSame first = first := by
  induction rest with
  | nil => rfl
  | cons c rest ih =>
    have unchanged : intersectSame first c = first := by
      cases first <;> simp [Constraint.kind, Kind.keepsFirst] at keeps <;>
        cases c <;> rfl
    rw [foldl_cons, unchanged, ih]

/-- The patterns of a target constraint. -/
def Constraint.patterns : Constraint → List String
  | .target patterns => patterns
  | _ => []

/-- The patterns that survive when the given constraints are merged, in order,
into a list of patterns. -/
def survivingPatterns (patterns : List String) (rest : List Constraint) : List String :=
  rest.foldl (fun kept c => intersectPatterns kept c.patterns) patterns

variable (patterns : List String)

theorem foldl_target (rest : List Constraint) (targets : ∀ c ∈ rest, c.kind = .target) :
    rest.foldl intersectSame (.target patterns) =
      .target (survivingPatterns patterns rest) := by
  induction rest generalizing patterns with
  | nil => rfl
  | cons c rest ih =>
    have isTarget := targets c (by simp)
    have restTargets : ∀ x ∈ rest, x.kind = .target := fun x member =>
      targets x (by simp [member])
    cases c with
    | target bp => exact ih (intersectPatterns patterns bp) restTargets
    | _ => simp [Constraint.kind] at isTarget

/-! ## Lists of patterns -/

/-- A pattern matches the target of the context. -/
def EvalContext.hits (ctx : EvalContext) (p : String) : Bool :=
  ctx.target.any (globMatch p)

/-- A pattern of the list matches the target of the context. -/
def EvalContext.Hits (ctx : EvalContext) (patterns : List String) : Prop :=
  ∃ p ∈ patterns, ctx.hits p = true

/-- The patterns left of some lists, the last one first: those that the last list shares with
what is left of the earlier ones, or all of both when it shares none. -/
def Survives : List (List String) → String → Prop
  | [], _ => False
  | last :: earlier, p =>
    (p ∈ last ∧ Survives earlier p) ∨
      (p ∈ last ∨ Survives earlier p) ∧ ∀ q ∈ last, ¬Survives earlier q

/-- When some lists, the last one first, let the target through exactly if every list matches it
and `others` holds.

If the last list shares a pattern with what is left of the earlier ones, the shared patterns
decide: one that matches must bring the earlier lists and the others with it, and where all of
them hold one must match.  If it shares none, a match of either side must bring the other. -/
def ListsExact (ctx : EvalContext) (others : Prop) : List (List String) → Prop
  | [] => others
  | last :: earlier =>
    ((∃ p ∈ last, Survives earlier p) →
      (∀ p ∈ last, Survives earlier p → ctx.hits p = true →
        (∀ list ∈ earlier, ctx.Hits list) ∧ others) ∧
      (ctx.Hits last → (∀ list ∈ earlier, ctx.Hits list) → others →
        ∃ p ∈ last, Survives earlier p ∧ ctx.hits p = true)) ∧
    ((¬∃ p ∈ last, Survives earlier p) →
      (∀ p, Survives earlier p → ctx.hits p = true →
        ctx.Hits last ∧ (∀ list ∈ earlier, ctx.Hits list) ∧ others) ∧
      (ctx.Hits last → (∀ list ∈ earlier, ctx.Hits list) ∧ others))

theorem satisfies_target_iff (ctx : EvalContext) :
    satisfies (.target patterns) ctx = true ↔ ctx.Hits patterns := by
  cases named : ctx.target with
  | none | some => simp [satisfies, EvalContext.Hits, EvalContext.hits, named]

theorem satisfies_iff_hits {c : Constraint} (ctx : EvalContext) (target : c.kind = .target) :
    satisfies c ctx = true ↔ ctx.Hits c.patterns := by
  cases c with
  | target patterns => exact satisfies_target_iff patterns ctx
  | _ => simp [Constraint.kind] at target

theorem mem_intersectPatterns (ap bp : List String) (p : String) :
    p ∈ intersectPatterns ap bp ↔
      (p ∈ bp ∧ p ∈ ap) ∨ (p ∈ bp ∨ p ∈ ap) ∧ ∀ q ∈ bp, q ∉ ap := by
  have none_shared : (ap.filter fun q => bp.contains q).isEmpty = true ↔ ∀ q ∈ bp, q ∉ ap := by
    simp only [List.isEmpty_iff, List.filter_eq_nil_iff, List.contains_iff_mem]
    exact ⟨fun apart q right left => apart q left right, fun apart q left right => apart q right left⟩
  simp only [intersectPatterns, none_shared]
  by_cases apart : ∀ q ∈ bp, q ∉ ap
  · have not_both : ¬(p ∈ bp ∧ p ∈ ap) := fun both => apart p both.1 both.2
    rw [if_pos apart, List.mem_append, or_iff_right not_both, and_iff_left apart, or_comm]
  · rw [if_neg apart, mem_filter, List.contains_iff_mem, and_comm]
    exact (or_iff_left fun either => apart either.2).symm

/-- The patterns that survive a merge, by the lists they come from. -/
theorem mem_survivingPatterns (rest : List Constraint) (p : String) :
    p ∈ survivingPatterns patterns rest ↔
      Survives ((patterns :: rest.map Constraint.patterns).reverse) p := by
  induction rest using List.reverseRecOn generalizing p with
  | nil => simp [survivingPatterns, Survives]
  | append_singleton rest c ih =>
    have step : survivingPatterns patterns (rest ++ [c]) =
        intersectPatterns (survivingPatterns patterns rest) c.patterns := by
      simp [survivingPatterns]
    have latest : (patterns :: (rest ++ [c]).map Constraint.patterns).reverse =
        c.patterns :: (patterns :: rest.map Constraint.patterns).reverse := by
      simp
    rw [step, latest, mem_intersectPatterns]
    simp only [ih, Survives]

/-- Where there is a list, `ListsExact` is what it says. -/
theorem listsExact_iff (ctx : EvalContext) (others : Prop) {lists : List (List String)}
    (some_list : lists ≠ []) :
    ((∃ p, Survives lists p ∧ ctx.hits p = true) ↔
      (∀ list ∈ lists, ctx.Hits list) ∧ others) ↔ ListsExact ctx others lists := by
  cases lists with
  | nil => exact absurd rfl some_list
  | cons last earlier =>
    rw [forall_mem_cons]
    by_cases shared : ∃ p ∈ last, Survives earlier p
    · have survives : ∀ p, Survives (last :: earlier) p ↔ p ∈ last ∧ Survives earlier p := by
        intro p
        rcases shared with ⟨q, inLast, stays⟩
        exact ⟨fun either => either.resolve_right fun apart => apart.2 q inLast stays, .inl⟩
      simp only [ListsExact, survives, shared, not_true_eq_false, forall_const,
        IsEmpty.forall_iff, and_true, and_assoc]
      constructor
      · intro exact
        exact ⟨fun p inLast stays hit => (exact.mp ⟨p, inLast, stays, hit⟩).2,
          fun hitLast hitEarlier held => exact.mpr ⟨hitLast, hitEarlier, held⟩⟩
      · intro exact
        constructor
        · intro hit
          rcases hit with ⟨p, inLast, stays, hit⟩
          exact ⟨⟨p, inLast, hit⟩, exact.1 p inLast stays hit⟩
        · intro all
          exact exact.2 all.1 all.2.1 all.2.2
    · have apart : ∀ p ∈ last, ¬Survives earlier p := fun p inLast stays =>
        shared ⟨p, inLast, stays⟩
      have survives : ∀ p, Survives (last :: earlier) p ↔ p ∈ last ∨ Survives earlier p := by
        intro p
        have not_both : ¬(p ∈ last ∧ Survives earlier p) := fun both => apart p both.1 both.2
        rw [Survives, or_iff_right not_both, and_iff_left apart]
      simp only [ListsExact, survives, shared, not_false_eq_true, forall_const,
        IsEmpty.forall_iff, true_and, and_assoc]
      constructor
      · intro exact
        refine ⟨fun p stays hit => exact.mp ⟨p, .inr stays, hit⟩, ?_⟩
        intro hit
        rcases hit with ⟨p, inLast, hit⟩
        exact (exact.mp ⟨p, .inl inLast, hit⟩).2
      · intro exact
        constructor
        · intro hit
          rcases hit with ⟨p, inLast | stays, hit⟩
          · exact ⟨⟨p, inLast, hit⟩, exact.2 ⟨p, inLast, hit⟩⟩
          · exact exact.1 p stays hit
        · intro all
          rcases all.1 with ⟨p, inLast, hit⟩
          exact ⟨p, .inl inLast, hit⟩

/-! ## The meaning of the merged list -/

section

variable (a b : List Constraint) (ctx : EvalContext)

/-- The constraints that bind the merged list whatever the target patterns are:
those of `a` that stay beside the first of their kind, the first of every kind
other than target, and the constraints of `b` merged by an exact rule. -/
def Enforced : Prop :=
  ∀ k : Kind,
    (∀ c ∈ bystanders Constraint.kind k a, satisfies c ctx = true) ∧
    (k ≠ .target → ∀ c ∈ leading Constraint.kind k a b, satisfies c ctx = true) ∧
    (k.exact = true → ∀ c ∈ absorbed Constraint.kind k a b, satisfies c ctx = true)

/-- The sessions, approvals and device bindings of `b` that an earlier constraint
of the same kind displaces all hold. -/
def DiscardedHold : Prop :=
  ∀ k : Kind, k.keepsFirst = true →
    ∀ c ∈ absorbed Constraint.kind k a b, satisfies c ctx = true

/-- The first target constraint and all those of `b` merged into it hold. -/
def TargetsHold : Prop :=
  (∀ c ∈ leading Constraint.kind .target a b, satisfies c ctx = true) ∧
    ∀ c ∈ absorbed Constraint.kind .target a b, satisfies c ctx = true

/-- Some surviving pattern matches the target. -/
def SurvivorsMatch : Prop :=
  ∀ c ∈ leading Constraint.kind .target a b,
    satisfies (.target (survivingPatterns c.patterns
      (absorbed Constraint.kind .target a b))) ctx = true

/-- The pattern lists of the target constraints that are merged, the last one first. -/
def targetLists : List (List String) :=
  (((leading Constraint.kind .target a b).toList ++
    absorbed Constraint.kind .target a b).map Constraint.patterns).reverse

/-- The contexts in which the merge still means conjunction: some enforced
constraint fails anyway, or the pattern lists let the target through exactly when
they should, given whether every discarded constraint holds. -/
def MergeExact : Prop :=
  ¬Enforced a b ctx ∨ ListsExact ctx (DiscardedHold a b ctx) (targetLists a b)

/-- The condition on the pattern lists, in terms of what the merge enforces. -/
theorem survivorsMatch_iff_iff :
    (SurvivorsMatch a b ctx ↔ TargetsHold a b ctx ∧ DiscardedHold a b ctx) ↔
      ListsExact ctx (DiscardedHold a b ctx) (targetLists a b) := by
  cases lead : leading Constraint.kind .target a b with
  | none =>
    have empty : absorbed Constraint.kind .target a b = [] := by
      rw [eq_nil_iff_forall_not_mem]
      intro c gone
      rcases exists_leading_of_mem_absorbed Constraint.kind .target a b c gone with ⟨first, is⟩
      simp [lead] at is
    simp [SurvivorsMatch, TargetsHold, targetLists, lead, empty, ListsExact]
  | some first =>
    have firstKind := kind_of_mem_leading Constraint.kind .target a b first lead
    have restKind := kind_of_mem_absorbed Constraint.kind .target a b
    have lists : targetLists a b =
        ((first :: absorbed Constraint.kind .target a b).map Constraint.patterns).reverse := by
      simp [targetLists, lead]
    have survivors : SurvivorsMatch a b ctx ↔
        ∃ p, Survives (targetLists a b) p ∧ ctx.hits p = true := by
      simp only [SurvivorsMatch, lead, Option.mem_some_iff, forall_eq', satisfies_target_iff,
        EvalContext.Hits, mem_survivingPatterns, lists, map_cons]
    have held : TargetsHold a b ctx ↔ ∀ list ∈ targetLists a b, ctx.Hits list := by
      simp only [TargetsHold, lead, lists, mem_reverse, forall_mem_map,
        Option.mem_some_iff, forall_eq', forall_mem_cons]
      exact and_congr (satisfies_iff_hits ctx firstKind)
        (forall₂_congr fun c gone => satisfies_iff_hits ctx (restKind c gone))
    rw [survivors, held, listsExact_iff ctx _ (by simp [lists])]

/-- What one merged kind asks for, by its merge rule. -/
theorem satisfies_foldl_iff (k : Kind) (first : Constraint)
    (lead : first ∈ leading Constraint.kind k a b) :
    satisfies ((absorbed Constraint.kind k a b).foldl intersectSame first) ctx = true ↔
      if k = .target then
        satisfies (.target (survivingPatterns first.patterns
          (absorbed Constraint.kind k a b))) ctx = true
      else
        satisfies first ctx = true ∧ (k.exact = true →
          ∀ c ∈ absorbed Constraint.kind k a b, satisfies c ctx = true) := by
  have firstKind := kind_of_mem_leading Constraint.kind k a b first lead
  have restKind := kind_of_mem_absorbed Constraint.kind k a b
  by_cases isTarget : k = .target
  · subst isTarget
    rw [if_pos rfl]
    cases first with
    | target patterns => rw [foldl_target patterns _ restKind]; rfl
    | _ => simp [Constraint.kind] at firstKind
  · rw [if_neg isTarget]
    by_cases exact : k.exact = true
    · rw [satisfies_foldl_of_exact first _ ctx
        (fun c gone => (restKind c gone).trans firstKind.symm) (firstKind ▸ exact)]
      simp [exact]
    · have keeps : first.kind.keepsFirst = true := by
        rw [firstKind]
        cases k <;> first | rfl | exact absurd rfl isTarget | exact absurd rfl exact
      rw [foldl_of_keepsFirst first _ keeps]
      simp [exact]

/-- The merged list asks for the enforced constraints and a surviving pattern. -/
theorem satisfied_intersectConstraints_iff :
    constraintsSatisfied (intersectConstraints a b) ctx = true ↔
      Enforced a b ctx ∧ SurvivorsMatch a b ctx := by
  rw [constraintsSatisfied_iff, intersectConstraints, forall_merge_iff intersectSame_kind]
  constructor
  · intro merged
    constructor
    · intro k
      refine ⟨(merged k).2, ?_, ?_⟩
      · intro notTarget first lead
        have asked := (satisfies_foldl_iff a b ctx k first lead).mp ((merged k).1 first lead)
        rw [if_neg notTarget] at asked
        exact asked.1
      · intro exact c gone
        have notTarget : k ≠ .target := by
          intro equal
          subst equal
          simp [Kind.exact] at exact
        rcases exists_leading_of_mem_absorbed Constraint.kind k a b c gone
          with ⟨first, lead⟩
        have asked := (satisfies_foldl_iff a b ctx k first lead).mp ((merged k).1 first lead)
        rw [if_neg notTarget] at asked
        exact asked.2 exact c gone
    · intro first lead
      have asked := (satisfies_foldl_iff a b ctx .target first lead).mp
        ((merged .target).1 first lead)
      rwa [if_pos rfl] at asked
  · intro both k
    rcases both with ⟨enforced, survivors⟩
    refine ⟨?_, (enforced k).1⟩
    intro first lead
    rw [satisfies_foldl_iff a b ctx k first lead]
    by_cases isTarget : k = .target
    · subst isTarget
      rw [if_pos rfl]
      exact survivors first lead
    · rw [if_neg isTarget]
      exact ⟨(enforced k).2.1 isTarget first lead, (enforced k).2.2⟩

/-- The two lists together ask for the enforced constraints, the target
constraints and the discarded ones. -/
theorem satisfied_both_iff :
    (constraintsSatisfied a ctx = true ∧ constraintsSatisfied b ctx = true) ↔
      Enforced a b ctx ∧ TargetsHold a b ctx ∧ DiscardedHold a b ctx := by
  rw [constraintsSatisfied_iff, constraintsSatisfied_iff, forall_both_iff Constraint.kind]
  constructor
  · intro both
    refine ⟨?_, ⟨(both .target).1, (both .target).2.1⟩, ?_⟩
    · intro k
      exact ⟨(both k).2.2, fun _ => (both k).1, fun _ => (both k).2.1⟩
    · intro k _
      exact (both k).2.1
  · intro parts k
    rcases parts with ⟨enforced, ⟨leadTarget, restTargets⟩, discarded⟩
    refine ⟨?_, ?_, (enforced k).1⟩
    · by_cases isTarget : k = .target
      · subst isTarget
        exact leadTarget
      · exact (enforced k).2.1 isTarget
    · cases k with
      | target => exact restTargets
      | session => exact discarded .session rfl
      | approval => exact discarded .approval rfl
      | deviceBinding => exact discarded .deviceBinding rfl
      | timeWindow => exact (enforced .timeWindow).2.2 rfl
      | quantity => exact (enforced .quantity).2.2 rfl
      | rate => exact (enforced .rate).2.2 rfl
      | quorum => exact (enforced .quorum).2.2 rfl

/-- Merging means conjunction exactly in the contexts of `MergeExact`. -/
theorem intersectConstraints_conjunction_iff :
    (constraintsSatisfied (intersectConstraints a b) ctx = true ↔
      constraintsSatisfied a ctx = true ∧ constraintsSatisfied b ctx = true) ↔
      MergeExact a b ctx := by
  rw [satisfied_intersectConstraints_iff, satisfied_both_iff, MergeExact, ← survivorsMatch_iff_iff]
  by_cases enforced : Enforced a b ctx
  · simp [enforced]
  · simp [enforced]

/-- For one target constraint on each side: lists with a common pattern lose only the targets that
both match and no common pattern does, lists without one must match the same targets. -/
theorem mergeExact_targets (ap bp : List String) :
    MergeExact [.target ap] [.target bp] ctx ↔
      ((∃ p ∈ bp, p ∈ ap) → ctx.Hits ap → ctx.Hits bp →
        ∃ p ∈ bp, p ∈ ap ∧ ctx.hits p = true) ∧
      ((¬∃ p ∈ bp, p ∈ ap) → (ctx.Hits ap ↔ ctx.Hits bp)) := by
  have enforced : Enforced [.target ap] [.target bp] ctx := by
    intro k
    cases k with
    | _ => simp [bystanders, leading, absorbed, ofKind, Constraint.kind, Kind.exact]
  have discarded : DiscardedHold [.target ap] [.target bp] ctx := by
    intro k keeps
    cases k with
    | _ => simp [absorbed, ofKind, Constraint.kind, Kind.keepsFirst] at keeps ⊢
  have lists : targetLists [.target ap] [.target bp] = [bp, ap] := rfl
  have first : ∀ p, Survives [ap] p ↔ p ∈ ap := by
    simp [Survives]
  simp only [MergeExact, enforced, discarded, lists, not_true_eq_false, false_or, ListsExact, first,
    forall_mem_singleton, and_true, forall_const]
  -- A pattern that matches is a match of its list.
  grind [EvalContext.Hits]

end

/-- Two grants with no common target pattern: the merge accepts a target that
only the first grant covers. -/
theorem intersectConstraints_widens_targets :
    ¬(constraintsSatisfied
          (intersectConstraints [.target ["repo/src"]] [.target ["repo/docs"]])
          ⟨"2026-01-01T00:00:00Z", none, some "repo/src", none, none⟩ = true ↔
        constraintsSatisfied [.target ["repo/src"]]
            ⟨"2026-01-01T00:00:00Z", none, some "repo/src", none, none⟩ = true ∧
          constraintsSatisfied [.target ["repo/docs"]]
            ⟨"2026-01-01T00:00:00Z", none, some "repo/src", none, none⟩ = true) := by
  decide

end TrustForge.Capability
