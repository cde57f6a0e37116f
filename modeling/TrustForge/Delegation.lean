import Mathlib.Algebra.Group.Int.Defs
import TrustForge.Capability
import TrustForge.Foundation.Result

/-!
# Delegation chains

Model of `delegation.rs`.  `walk_chain` goes through the links from the root with three
variables: the constraints so far, whether the previous link may be redelegated, and how
many further links its predecessors leave.  The last one is a single counter; it stands
for a bound on the distance between every link and its successors.

The walk reads neither the delegator nor the delegate of a link.
-/

namespace TrustForge.Delegation

open List Option Except Result Nat
open Capability (Constraint intersectConstraints)

/-- `DelegationLink_Redelegation`. -/
structure Redelegation where
  allowed : Bool
  maxDepth : Option Int

/-- `DelegationLink`, without the fields that the walk has no use for. -/
structure DelegationLink where
  delegator : String
  delegate : String
  constraints : Option (List Constraint)
  expiresAt : Option String
  redelegation : Option Redelegation

/-- A slice of links.  Slices have at most `isize::MAX` elements. -/
structure Chain where
  links : List DelegationLink
  short : links.length < 2 ^ 63

structure WalkResult where
  valid : Bool
  effective : List Constraint
  expiredAt : Option String
  brokenStep : Option Nat
  reason : Option String

/-! ## The walk -/

/-- The variables of the loop. -/
structure Walk where
  effective : List Constraint
  allowRedelegation : Bool
  maxDepthRemaining : Int

namespace Walk

/-- The variables before the loop; the counter starts at `i64::MAX`. -/
def start : Walk where
  effective := []
  allowRedelegation := true
  maxDepthRemaining := 2 ^ 63 - 1

variable (walk : Walk)

/-- The result of a walk that stops at step `i`. -/
def broken (i : Nat) (expiredAt : Option String) (reason : String) :
    WalkResult where
  valid := false
  effective := walk.effective
  expiredAt := expiredAt
  brokenStep := some i
  reason := some reason

/-- The checks on redelegation, for every step but the first. -/
def redelegate (i : Nat) : Except WalkResult Walk :=
  if 0 < i then
    if !walk.allowRedelegation then
      .error (walk.broken i none s!"step {i - 1} disallows redelegation")
    else if walk.maxDepthRemaining ≤ 0 then
      .error (walk.broken i none s!"max_depth exceeded at step {i}")
    else .ok { walk with maxDepthRemaining := walk.maxDepthRemaining - 1 }
  else .ok walk

/-- The check on expiry. -/
def expire (now : String) (i : Nat) (step : DelegationLink) :
    Except WalkResult Unit :=
  match step.expiresAt with
  | none => .ok ()
  | some expiresAt =>
    if expiresAt < now then
      .error (walk.broken i (some expiresAt) s!"step {i} expired at {expiresAt}")
    else .ok ()

/-- The rest of the loop body. -/
def follow (step : DelegationLink) : Walk where
  effective :=
    match step.constraints with
    | none => walk.effective
    | some constraints =>
      if constraints.isEmpty then walk.effective
      else intersectConstraints walk.effective constraints
  allowRedelegation :=
    match step.redelegation with
    | none => true
    | some redelegation => redelegation.allowed
  maxDepthRemaining :=
    match step.redelegation.bind Redelegation.maxDepth with
    | none => walk.maxDepthRemaining
    | some d => min walk.maxDepthRemaining d

/-- One turn of the loop. -/
def turn (now : String) (i : Nat) (step : DelegationLink) :
    Except WalkResult Walk := do
  let walk ← walk.redelegate i
  walk.expire now i step
  .ok (walk.follow step)

end Walk

/-- The loop of `walk_chain`, from step `i` on. -/
def walkFrom (now : String) : Nat → List DelegationLink → Walk → WalkResult
  | _, [], walk =>
    { valid := true, effective := walk.effective, expiredAt := none, brokenStep := none,
      reason := none }
  | i, step :: rest, walk =>
    match walk.turn now i step with
    | .error result => result
    | .ok next => walkFrom now (i + 1) rest next

variable (chain : Chain) (now : String)

def walkChain : WalkResult :=
  walkFrom now 0 chain.links .start

/-! ## What a valid chain is -/

variable (link : DelegationLink)

/-- The depth that a link allows its successors, if it sets one. -/
def DelegationLink.depth? : Option Int :=
  link.redelegation.bind Redelegation.maxDepth

/-- The expiry of a link, if it has one, is not in the past. -/
def DelegationLink.Unexpired (now : String) : Prop :=
  ∀ expiresAt, link.expiresAt = some expiresAt → ¬expiresAt < now

/-- A link that speaks about redelegation allows it. -/
def DelegationLink.Redelegable : Prop :=
  ∀ redelegation, link.redelegation = some redelegation → redelegation.allowed = true

/-- Every link is in force, every link but the last may be redelegated, and no link is
further from a predecessor than that one allows. -/
structure Lawful (now : String) (links : List DelegationLink) : Prop where
  unexpired : ∀ link ∈ links, link.Unexpired now
  redelegable : ∀ i link, i + 1 < links.length → links[i]? = some link → link.Redelegable
  near : ∀ i j link d, i < j → j < links.length → links[i]? = some link →
    link.depth? = some d → (j : Int) - i ≤ d

/-- A depth leaves room for `n` further links. -/
def Admits (d : Int) (n : Nat) : Prop :=
  ∀ k : Nat, k < n → (k : Int) < d

theorem admits_zero (d : Int) : Admits d 0 :=
  fun _ impossible => absurd impossible (not_lt_zero _)

theorem admits_succ_iff (d : Int) (n : Nat) : Admits d (n + 1) ↔ 0 < d ∧ Admits (d - 1) n := by
  constructor
  · intro admits
    refine ⟨admits 0 (succ_pos n), ?_⟩
    intro k small
    have later := admits (k + 1) (succ_lt_succ small)
    omega
  · rintro ⟨positive, admits⟩ k small
    cases k with
    | zero => exact positive
    | succ k =>
      have earlier := admits k (lt_of_succ_lt_succ small)
      omega

theorem admits_min_iff (c d : Int) (n : Nat) : Admits (min c d) n ↔ Admits c n ∧ Admits d n := by
  constructor
  · intro admits
    exact ⟨fun k small => lt_of_lt_of_le (admits k small) (min_le_left c d),
      fun k small => lt_of_lt_of_le (admits k small) (min_le_right c d)⟩
  · rintro ⟨first, second⟩ k small
    exact lt_min (first k small) (second k small)

theorem lawful_nil : Lawful now [] where
  unexpired := by simp
  redelegable := by simp
  near := by simp

/-- The law of a chain by its first link. -/
theorem lawful_cons_iff (rest : List DelegationLink) :
    Lawful now (link :: rest) ↔
      link.Unexpired now ∧ (rest ≠ [] → link.Redelegable) ∧
        (∀ d, link.depth? = some d → Admits d rest.length) ∧ Lawful now rest := by
  constructor
  · intro lawful
    refine ⟨lawful.unexpired link mem_cons_self, ?_, ?_, ?_⟩
    · intro more
      exact lawful.redelegable 0 link (succ_lt_succ (length_pos_of_ne_nil more)) rfl
    · intro d depth k small
      have bound := lawful.near 0 (k + 1) link d (succ_pos k) (succ_lt_succ small) rfl depth
      omega
    · constructor
      · exact fun other member => lawful.unexpired other (mem_cons_of_mem link member)
      · exact fun i other inner found =>
          lawful.redelegable (i + 1) other (succ_lt_succ inner) found
      · intro i j other d before inside found depth
        have bound := lawful.near (i + 1) (j + 1) other d (succ_lt_succ before)
          (succ_lt_succ inside) found depth
        omega
  · rintro ⟨unexpired, redelegable, admits, lawful⟩
    constructor
    · intro other member
      rcases mem_cons.mp member with first | later
      · rw [first]
        exact unexpired
      · exact lawful.unexpired other later
    · intro i other inner found
      cases i with
      | zero =>
        cases some.inj found
        exact redelegable (ne_nil_of_length_pos (lt_of_succ_lt_succ inner))
      | succ i => exact lawful.redelegable i other (lt_of_succ_lt_succ inner) found
    · intro i j other d before inside found depth
      rcases exists_eq_succ_of_ne_zero (ne_zero_of_lt before) with ⟨k, equal⟩
      subst equal
      cases i with
      | zero =>
        cases some.inj found
        have bound := admits d depth k (lt_of_succ_lt_succ inside)
        omega
      | succ i =>
        have bound := lawful.near i k other d (lt_of_succ_lt_succ before)
          (lt_of_succ_lt_succ inside) found depth
        omega

/-! ## The walk decides the law -/

theorem expire_eq_ok_iff (walk : Walk) (now : String) (i : Nat) (step : DelegationLink) :
    walk.expire now i step = .ok () ↔ step.Unexpired now := by
  unfold Walk.expire DelegationLink.Unexpired
  cases step.expiresAt with
  | none => simp
  | some expiresAt =>
    by_cases past : expiresAt < now
    · simp only [if_pos past]
      exact iff_of_false nofun fun unexpired => unexpired expiresAt rfl past
    · simp only [if_neg past]
      refine iff_of_true trivial ?_
      intro other same
      rwa [← some.inj same]

theorem redelegate_succ_eq_ok_iff (walk next : Walk) (i : Nat) :
    walk.redelegate (i + 1) = .ok next ↔
      walk.allowRedelegation = true ∧ 0 < walk.maxDepthRemaining ∧
        next = { walk with maxDepthRemaining := walk.maxDepthRemaining - 1 } := by
  rw [Walk.redelegate, if_pos (succ_pos i)]
  cases walk.allowRedelegation with
  | false => simp
  | true =>
    by_cases spent : walk.maxDepthRemaining ≤ 0
    · have none : ¬0 < walk.maxDepthRemaining := not_lt.mpr spent
      simp [spent]
    · have left : 0 < walk.maxDepthRemaining := not_le.mp spent
      simp [spent, left, eq_comm]

variable {result : WalkResult}

theorem redelegate_error_valid {walk : Walk} {i : Nat} (stopped : walk.redelegate i = .error result) :
    result.valid = false := by
  unfold Walk.redelegate at stopped
  split_ifs at stopped
  all_goals
    cases error.inj stopped
    rfl

theorem expire_error_valid {walk : Walk} {now : String} {i : Nat} {step : DelegationLink}
    (stopped : walk.expire now i step = .error result) : result.valid = false := by
  unfold Walk.expire at stopped
  split at stopped
  · contradiction
  · split_ifs at stopped
    cases error.inj stopped
    rfl

/-- The loop is left early only with a broken chain. -/
theorem turn_error_valid {walk : Walk} {now : String} {i : Nat} {step : DelegationLink}
    (stopped : walk.turn now i step = .error result) : result.valid = false := by
  rcases bind_eq_error_iff.mp stopped with refused | ⟨entered, _, later⟩
  · exact redelegate_error_valid refused
  · rcases bind_eq_error_iff.mp later with expired | ⟨_, _, never⟩
    · exact expire_error_valid expired
    · contradiction

/-- A turn goes on exactly when both checks pass. -/
theorem turn_eq_ok_iff (walk next : Walk) (now : String) (i : Nat) (step : DelegationLink) :
    walk.turn now i step = .ok next ↔
      ∃ entered, walk.redelegate i = .ok entered ∧ step.Unexpired now ∧
        next = entered.follow step := by
  constructor
  · intro passed
    rcases bind_eq_ok passed with ⟨entered, redelegated, later⟩
    rcases bind_eq_ok later with ⟨_, unexpired, followed⟩
    exact ⟨entered, redelegated, (expire_eq_ok_iff entered now i step).mp unexpired,
      (ok.inj followed).symm⟩
  · rintro ⟨entered, redelegated, unexpired, equal⟩
    rw [Walk.turn, redelegated, equal]
    change (entered.expire now i step >>= fun _ => Except.ok (entered.follow step)) = _
    rw [(expire_eq_ok_iff entered now i step).mpr unexpired]
    rfl

theorem walkFrom_cons_valid_iff (i : Nat) (step : DelegationLink)
    (rest : List DelegationLink) (walk : Walk) :
    (walkFrom now i (step :: rest) walk).valid = true ↔
      ∃ next, walk.turn now i step = .ok next ∧ (walkFrom now (i + 1) rest next).valid = true := by
  rw [walkFrom]
  cases turned : walk.turn now i step with
  | error result =>
    have broken := turn_error_valid turned
    simp [broken]
  | ok next => simp

theorem follow_allowRedelegation_iff (walk : Walk) (step : DelegationLink) :
    (walk.follow step).allowRedelegation = true ↔ step.Redelegable := by
  unfold Walk.follow DelegationLink.Redelegable
  cases step.redelegation with
  | none | some => simp

theorem admits_follow_iff (walk : Walk) (step : DelegationLink) (n : Nat) :
    Admits (walk.follow step).maxDepthRemaining n ↔
      Admits walk.maxDepthRemaining n ∧ ∀ d, step.depth? = some d → Admits d n := by
  unfold Walk.follow DelegationLink.depth?
  cases step.redelegation.bind Redelegation.maxDepth with
  | none => simp
  | some depth => simp [admits_min_iff]

variable (links : List DelegationLink)

/-- The loop after the first step, by the variables it starts with.  The counter has to
admit the links that are left. -/
theorem walkFrom_succ_valid_iff (i : Nat) (walk : Walk) :
    (walkFrom now (i + 1) links walk).valid = true ↔
      (links ≠ [] → walk.allowRedelegation = true) ∧
        Admits walk.maxDepthRemaining links.length ∧ Lawful now links := by
  induction links generalizing i walk with
  | nil => simp [walkFrom, admits_zero, lawful_nil]
  | cons step rest ih =>
    rw [walkFrom_cons_valid_iff, lawful_cons_iff, length_cons, admits_succ_iff]
    simp only [turn_eq_ok_iff, redelegate_succ_eq_ok_iff]
    constructor
    · rintro ⟨next, ⟨entered, ⟨allowed, left, spent⟩, unexpired, followed⟩, valid⟩
      subst followed spent
      rw [ih, follow_allowRedelegation_iff, admits_follow_iff] at valid
      rcases valid with ⟨redelegable, ⟨admits, near⟩, lawful⟩
      exact ⟨fun _ => allowed, ⟨left, admits⟩, unexpired, redelegable, near, lawful⟩
    · rintro ⟨allowed, ⟨left, admits⟩, unexpired, redelegable, near, lawful⟩
      refine ⟨_, ⟨_, ⟨allowed (cons_ne_nil step rest), left, rfl⟩, unexpired, rfl⟩, ?_⟩
      rw [ih, follow_allowRedelegation_iff, admits_follow_iff]
      exact ⟨redelegable, ⟨admits, near⟩, lawful⟩

/-- A walk finds a chain valid exactly when the chain is lawful. -/
theorem walkChain_valid_iff : (walkChain chain now).valid = true ↔ Lawful now chain.links := by
  rcases chain with ⟨links, short⟩
  unfold walkChain
  cases links with
  | nil => exact iff_of_true rfl (lawful_nil now)
  | cons step rest =>
    -- Fewer links follow than the counter starts with.
    have room : Admits Walk.start.maxDepthRemaining rest.length := by
      intro k small
      rw [length_cons] at short
      change (k : Int) < 2 ^ 63 - 1
      omega
    rw [walkFrom_cons_valid_iff, lawful_cons_iff]
    simp only [turn_eq_ok_iff, walkFrom_succ_valid_iff]
    constructor
    · rintro ⟨next, ⟨entered, redelegated, unexpired, followed⟩, valid⟩
      cases ok.inj redelegated
      subst followed
      rw [follow_allowRedelegation_iff, admits_follow_iff] at valid
      exact ⟨unexpired, valid.1, valid.2.1.2, valid.2.2⟩
    · rintro ⟨unexpired, redelegable, near, lawful⟩
      refine ⟨_, ⟨Walk.start, rfl, unexpired, rfl⟩, ?_⟩
      rw [follow_allowRedelegation_iff, admits_follow_iff]
      exact ⟨redelegable, ⟨room, near⟩, lawful⟩

/-! ## Who delegates to whom -/

/-- Every link starts from the actor that the link before it ends with. -/
def Connected : Prop :=
  links.IsChain fun link next => link.delegate = next.delegator

instance : Decidable (Connected links) :=
  inferInstanceAs (Decidable (links.IsChain _))

/-- Links that differ at most in the two actors. -/
def DelegationLink.SameTerms (link other : DelegationLink) : Prop :=
  link.constraints = other.constraints ∧ link.expiresAt = other.expiresAt ∧
    link.redelegation = other.redelegation

/-- The walk reads only the terms of a link. -/
theorem walkFrom_eq_of_sameTerms {now : String} {links others : List DelegationLink}
    (same : Forall₂ DelegationLink.SameTerms links others) (i : Nat) (walk : Walk) :
    walkFrom now i links walk = walkFrom now i others walk := by
  induction same generalizing i walk with
  | nil => rfl
  | @cons link other rest rest' terms _ ih =>
    have turns : walk.turn now i link = walk.turn now i other := by
      rcases terms with ⟨constraints, expiresAt, redelegation⟩
      unfold Walk.turn Walk.expire Walk.follow
      rw [constraints, expiresAt, redelegation]
    rw [walkFrom, walkFrom, turns]
    cases walk.turn now i other with
    | error result => rfl
    | ok next => exact ih (i + 1) next

variable (delegator delegate : String)

/-- The same terms between two fixed actors, for every link. -/
def Chain.repeated : Chain where
  links := chain.links.map fun link => { link with delegator, delegate }
  short := by rw [length_map]; exact chain.short

theorem repeated_sameTerms :
    Forall₂ DelegationLink.SameTerms (chain.repeated delegator delegate).links
      chain.links := by
  unfold Chain.repeated
  rw [forall₂_map_left_iff, forall₂_same]
  exact fun link _ => ⟨rfl, rfl, rfl⟩

theorem repeated_not_connected (long : 1 < chain.links.length) :
    ¬Connected (chain.repeated "a" "b").links := by
  rcases chain with ⟨_ | ⟨first, _ | ⟨second, rest⟩⟩, short⟩
  · contradiction
  · exact absurd long (lt_irrefl 1)
  · intro connected
    have equal : "b" = "a" := (isChain_cons_cons.mp connected).1
    exact absurd equal (by decide)

/-- The actors of a chain do not change what the walk returns.  The terms of a chain force its
actors to be connected only where they are not lawful, or where there is nothing to connect. -/
theorem valid_connected_iff :
    (∀ other : Chain, Forall₂ DelegationLink.SameTerms other.links chain.links →
        walkChain other now = walkChain chain now) ∧
      ((∀ other : Chain, Forall₂ DelegationLink.SameTerms other.links chain.links →
          (walkChain other now).valid = true → Connected other.links) ↔
        ¬Lawful now chain.links ∨ chain.links.length ≤ 1) := by
  have unread (other : Chain)
      (sameTerms : Forall₂ DelegationLink.SameTerms other.links chain.links) :
      walkChain other now = walkChain chain now :=
    walkFrom_eq_of_sameTerms sameTerms 0 _
  refine ⟨unread, ?_⟩
  rw [← walkChain_valid_iff]
  constructor
  · intro forced
    by_contra rejected
    rw [not_or, not_not, not_le] at rejected
    rcases rejected with ⟨valid, long⟩
    have sameTerms := repeated_sameTerms chain "a" "b"
    refine repeated_not_connected chain long (forced _ sameTerms ?_)
    rwa [unread _ sameTerms]
  · rintro (invalid | short) other sameTerms valid
    · exact absurd (unread other sameTerms ▸ valid) invalid
    · rw [← sameTerms.length_eq] at short
      unfold Connected
      match other.links, short with
      | [], _ => exact .nil
      | [link], _ => exact .singleton link

/-- A link without terms between two actors. -/
def plainLink : DelegationLink where
  delegator := delegator
  delegate := delegate
  constraints := none
  expiresAt := none
  redelegation := none

/-- An actor that received nothing starts the second link. -/
theorem spliced_chain_valid :
    let spliced : Chain :=
      { links := [plainLink "tf:actor:human:alice" "tf:actor:agent:helper",
          plainLink "tf:actor:human:mallory" "tf:actor:agent:scanner"]
        short := by decide }
    (walkChain spliced "2026-01-01T00:00:00Z").valid = true ∧ ¬Connected spliced.links := by
  decide

end TrustForge.Delegation
