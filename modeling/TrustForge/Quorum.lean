import Mathlib.Data.List.Induction
import Mathlib.Data.List.Perm.Subperm
import TrustForge.Foundation.Result

/-!
# Quorum approval

Model of `quorum.rs`: a collector for one request takes the votes of eligible approvers,
each at most once, and settles on an outcome as soon as enough of them approve, or when
everybody has voted.  Votes that come later are still recorded; the outcome keeps the
lists as they were.
-/

namespace TrustForge.Quorum

open List Option Result

structure QuorumConfig where
  minApprovers : UInt32
  of : List String

structure QuorumSignature where
  algorithm : String
  signer : String
  signature : String

structure QuorumCeremony where
  ceremonyVersion : String
  ceremonyId : String
  kind : String
  requestId : String
  startedAt : String
  completedAt : Option String
  minApprovers : UInt32
  of : List String
  approvers : List String
  signatures : List QuorumSignature

structure QuorumOutcome where
  decision : String
  approvers : List String
  deniers : List String
  ceremony : QuorumCeremony

structure QuorumState where
  approvers : List String := []
  deniers : List String := []
  signatures : List QuorumSignature := []
  outcome : Option QuorumOutcome := none

structure QuorumHandle where
  cfg : QuorumConfig
  requestId : String
  startedAt : String
  state : QuorumState

structure QuorumApprovalCollector where
  cfg : QuorumConfig

/-- The arguments of `respond_as`, and the time at which it is called. -/
structure Vote where
  approver : String
  decision : String
  signature : QuorumSignature
  now : String

variable {cfg : QuorumConfig} {collector : QuorumApprovalCollector}

namespace QuorumApprovalCollector

/-- `QuorumApprovalCollector::new`.  The cast of a length to `u32` drops its high bits. -/
def new (cfg : QuorumConfig) : Except String QuorumApprovalCollector :=
  if cfg.minApprovers < 1 then .error "quorum.min_approvers must be ≥ 1"
  else if UInt32.ofNat cfg.of.length < cfg.minApprovers then
    let count := cfg.of.length
    let least := cfg.minApprovers
    .error s!"quorum.of ({count}) must contain at least min_approvers ({least}) actors"
  else .ok ⟨cfg⟩

def push (collector : QuorumApprovalCollector) (requestId startedAt : String) : QuorumHandle where
  cfg := collector.cfg
  requestId := requestId
  startedAt := startedAt
  state := {}

/-- Only configurations that ask for somebody's approval are accepted. -/
theorem of_new (accepted : new cfg = .ok collector) :
    collector.cfg = cfg ∧ 0 < cfg.minApprovers.toNat := by
  rcases ite_eq_ok accepted with ⟨positive, later⟩
  rcases ite_eq_ok later with ⟨_, equal⟩
  cases Except.ok.inj equal
  refine ⟨rfl, ?_⟩
  rw [UInt32.lt_iff_toNat_lt] at positive
  exact Nat.le_of_not_lt positive

end QuorumApprovalCollector

/-- The vote is written down. -/
def QuorumState.record (state : QuorumState) (vote : Vote) : QuorumState :=
  if vote.decision = "approve" then
    { state with
      approvers := state.approvers ++ [vote.approver]
      signatures := state.signatures ++ [vote.signature] }
  else { state with deniers := state.deniers ++ [vote.approver] }

namespace QuorumHandle

variable (handle : QuorumHandle)

def materialise (now : String) (state : QuorumState) (decision : String) :
    QuorumOutcome :=
  let requestId := handle.requestId
  { decision := decision
    approvers := state.approvers
    deniers := state.deniers
    ceremony :=
      { ceremonyVersion := "1"
        ceremonyId := s!"cer-{requestId}-quorum"
        kind := "quorum"
        requestId := requestId
        startedAt := handle.startedAt
        completedAt := some now
        minApprovers := handle.cfg.minApprovers
        of := handle.cfg.of
        approvers := state.approvers
        signatures := state.signatures } }

/-- The end of `respond_as`: the outcome, if it is due and there is none yet. -/
def settle (now : String) (state : QuorumState) : QuorumState :=
  if UInt32.ofNat state.approvers.length ≥ handle.cfg.minApprovers ∧ state.outcome = none then
    { state with outcome := some (handle.materialise now state "approve") }
  else if state.approvers.length + state.deniers.length ≥ handle.cfg.of.length ∧
      state.outcome = none then
    { state with outcome := some (handle.materialise now state "deny") }
  else state

def respondAs (vote : Vote) : Bool × QuorumHandle :=
  if vote.approver ∉ handle.cfg.of then (false, handle)
  else if vote.approver ∈ handle.state.approvers ∨ vote.approver ∈ handle.state.deniers then
    (false, handle)
  else (true, { handle with state := handle.settle vote.now (handle.state.record vote) })

def outcome : Option QuorumOutcome :=
  handle.state.outcome

/-- Votes in the order in which they get hold of the lock. -/
def respondAll (votes : List Vote) : QuorumHandle :=
  votes.foldl (fun current vote => (current.respondAs vote).2) handle

end QuorumHandle

/-! ## One vote -/

namespace QuorumState

@[simp] theorem record_outcome (state : QuorumState) (vote : Vote) :
    (state.record vote).outcome = state.outcome := by
  unfold record
  split <;> rfl

/-- Everybody whose vote is written down, in no particular order. -/
def voters (state : QuorumState) : List String :=
  state.approvers ++ state.deniers

theorem perm_voters_record (state : QuorumState) (vote : Vote) :
    (state.record vote).voters.Perm (vote.approver :: state.voters) := by
  unfold record
  split
  · simp [voters]
  · simpa [voters] using perm_append_singleton vote.approver (state.approvers ++ state.deniers)

end QuorumState

variable {handle : QuorumHandle} {state : QuorumState} {result : QuorumOutcome}

namespace QuorumHandle

@[simp] theorem respondAs_cfg (handle : QuorumHandle) (vote : Vote) :
    (handle.respondAs vote).2.cfg = handle.cfg := by
  unfold respondAs
  split_ifs <;> rfl

/-- A vote is dropped, or its approver is eligible and votes for the first time. -/
theorem respondAs_cases (handle : QuorumHandle) (vote : Vote) :
    ((vote.approver ∈ handle.cfg.of → vote.approver ∈ handle.state.voters) ∧
        (handle.respondAs vote).2 = handle) ∨
      (vote.approver ∈ handle.cfg.of ∧ vote.approver ∉ handle.state.voters ∧
        (handle.respondAs vote).2 =
          { handle with state := handle.settle vote.now (handle.state.record vote) }) := by
  unfold respondAs
  split_ifs with eligible again
  · refine .inl ⟨fun _ => ?_, rfl⟩
    rwa [QuorumState.voters, mem_append]
  · refine .inr ⟨eligible, ?_, rfl⟩
    rwa [QuorumState.voters, mem_append]
  · exact .inl ⟨fun listed => absurd listed eligible, rfl⟩

/-- What holds at first and is kept by every vote holds after all votes. -/
theorem push_rule {P : List Vote → QuorumState → Prop} (start : P [] {})
    (dropped : ∀ {votes : List Vote} {state : QuorumState} {vote : Vote}, P votes state →
      (vote.approver ∈ collector.cfg.of → vote.approver ∈ state.voters) →
      P (votes ++ [vote]) state)
    (recorded : ∀ {votes : List Vote} {state : QuorumState} {vote : Vote} {handle : QuorumHandle},
      P votes state → handle.cfg = collector.cfg → vote.approver ∈ collector.cfg.of →
      vote.approver ∉ state.voters →
      P (votes ++ [vote]) (handle.settle vote.now (state.record vote)))
    (requestId startedAt : String) (votes : List Vote) :
    P votes ((collector.push requestId startedAt).respondAll votes).state := by
  have run (handle : QuorumHandle) (same : handle.cfg = collector.cfg) (earlier : List Vote)
      (holds : P earlier handle.state) : P (earlier ++ votes) (handle.respondAll votes).state := by
    induction votes generalizing handle earlier with
    | nil =>
      rw [append_nil]
      exact holds
    | cons vote votes ih =>
      have step : P (earlier ++ [vote]) (handle.respondAs vote).2.state := by
        obtain ⟨known, next⟩ | ⟨eligible, first, next⟩ := handle.respondAs_cases vote
        · rw [next]
          exact dropped holds (same ▸ known)
        · rw [next]
          exact recorded holds same (same ▸ eligible) first
      have later := ih _ ((handle.respondAs_cfg vote).trans same) _ step
      rwa [append_assoc, singleton_append] at later
  exact run (collector.push requestId startedAt) rfl [] start

/-- An outcome is not looked at again. -/
theorem settle_of_some (settled : state.outcome = some result) (now : String) :
    handle.settle now state = state := by
  simp [settle, settled]

/-- What `respond_as` may do about the outcome. -/
theorem settle_cases (pending : state.outcome = none) (now : String) :
    (UInt32.ofNat state.approvers.length ≥ handle.cfg.minApprovers ∧
        handle.settle now state =
          { state with outcome := some (handle.materialise now state "approve") }) ∨
      (¬UInt32.ofNat state.approvers.length ≥ handle.cfg.minApprovers ∧
        state.approvers.length + state.deniers.length ≥ handle.cfg.of.length ∧
        handle.settle now state =
          { state with outcome := some (handle.materialise now state "deny") }) ∨
      (¬UInt32.ofNat state.approvers.length ≥ handle.cfg.minApprovers ∧
        handle.settle now state = state) := by
  by_cases enough : UInt32.ofNat state.approvers.length ≥ handle.cfg.minApprovers
  · exact .inl ⟨enough, by rw [settle, if_pos ⟨enough, pending⟩]⟩
  · by_cases all : state.approvers.length + state.deniers.length ≥ handle.cfg.of.length
    · refine .inr (.inl ⟨enough, all, ?_⟩)
      rw [settle, if_neg fun both => enough both.1, if_pos ⟨all, pending⟩]
    · refine .inr (.inr ⟨enough, ?_⟩)
      rw [settle, if_neg fun both => enough both.1, if_neg fun both => all both.1]

end QuorumHandle

/-! ## Whole ballots -/

/-- The approver gave this signature with a vote to approve. -/
def Signed (votes : List Vote) (approver : String) (signature : QuorumSignature) : Prop :=
  ∃ vote ∈ votes, vote.approver = approver ∧ vote.decision = "approve" ∧ vote.signature = signature

/-- What holds of an outcome, and of the lists when it was reached. -/
structure Sound (cfg : QuorumConfig) (votes : List Vote) (state : QuorumState)
    (result : QuorumOutcome) : Prop where
  decision : result.decision = "approve" ∨ result.decision = "deny"
  approversNodup : result.approvers.Nodup
  approversEligible : ∀ approver ∈ result.approvers, approver ∈ cfg.of
  ceremony : result.ceremony.approvers = result.approvers
  signed : Forall₂ (Signed votes) result.approvers result.ceremony.signatures
  approved : result.decision = "approve" → cfg.minApprovers.toNat ≤ result.approvers.length
  denied : result.decision = "deny" →
    state.approvers = result.approvers ∧ result.approvers.length < cfg.minApprovers.toNat ∧
      cfg.of.length ≤ state.voters.length

/-- What holds after every vote. -/
structure Ballot (cfg : QuorumConfig) (votes : List Vote) (state : QuorumState) : Prop where
  nodup : state.voters.Nodup
  eligible : ∀ voter ∈ state.voters, voter ∈ cfg.of
  signed : Forall₂ (Signed votes) state.approvers state.signatures
  pending : state.outcome = none → state.approvers.length < cfg.minApprovers.toNat
  sound : ∀ result, state.outcome = some result → Sound cfg votes state result

variable {votes : List Vote}

theorem Signed.later {approver : String} {signature : QuorumSignature}
    (signed : Signed votes approver signature) (vote : Vote) :
    Signed (votes ++ [vote]) approver signature := by
  obtain ⟨earlier, member, facts⟩ := signed
  exact ⟨earlier, mem_append_left _ member, facts⟩

theorem Sound.later (sound : Sound cfg votes state result) (vote : Vote) :
    Sound cfg (votes ++ [vote]) state result :=
  { sound with signed := sound.signed.imp fun _ _ signed => signed.later vote }

variable {vote : Vote}

namespace Ballot

variable {cfg : QuorumConfig} {votes : List Vote} {state : QuorumState}

theorem start (positive : 0 < cfg.minApprovers.toNat) : Ballot cfg [] {} where
  nodup := nodup_nil
  eligible := by simp [QuorumState.voters]
  signed := .nil
  pending := fun _ => positive
  sound := by simp

theorem later (ballot : Ballot cfg votes state) (vote : Vote) :
    Ballot cfg (votes ++ [vote]) state :=
  { ballot with
    signed := ballot.signed.imp fun _ _ signed => signed.later vote
    sound := fun result settled => (ballot.sound result settled).later vote }

/-- Once all places are taken by distinct voters, nobody is left to vote. -/
theorem mem_voters_of_full (ballot : Ballot cfg votes state)
    (full : cfg.of.length ≤ state.voters.length) {approver : String}
    (eligible : approver ∈ cfg.of) : approver ∈ state.voters :=
  ((ballot.nodup.subperm ballot.eligible).perm_of_length_le full).mem_iff.mpr eligible

section

variable {vote : Vote} (ballot : Ballot cfg votes state) (eligible : vote.approver ∈ cfg.of)
  (first : vote.approver ∉ state.voters)

include ballot

variable (vote) in
theorem record_signed :
    Forall₂ (Signed (votes ++ [vote])) (state.record vote).approvers
      (state.record vote).signatures := by
  unfold QuorumState.record
  split
  · rename_i approves
    refine rel_append (ballot.later vote).signed (.cons ?_ .nil)
    exact ⟨vote, mem_append_right _ mem_cons_self, rfl, approves, rfl⟩
  · exact (ballot.later vote).signed

include first in
theorem record_nodup : (state.record vote).voters.Nodup :=
  (state.perm_voters_record vote).nodup_iff.mpr (nodup_cons.mpr ⟨first, ballot.nodup⟩)

include eligible in
theorem record_eligible : ∀ voter ∈ (state.record vote).voters, voter ∈ cfg.of := by
  intro voter member
  rw [(state.perm_voters_record vote).mem_iff, mem_cons] at member
  cases member with
  | inl equal => exact equal ▸ eligible
  | inr earlier => exact ballot.eligible voter earlier

variable (vote) in
/-- The number of approvals grows by one at most. -/
theorem length_record_le (pending : state.outcome = none) :
    (state.record vote).approvers.length ≤ cfg.minApprovers.toNat := by
  have few := ballot.pending pending
  unfold QuorumState.record
  split
  · rw [length_append]
    exact few
  · exact Nat.le_of_lt few

variable (vote) in
/-- The cast to `u32` is harmless: the outcome is due before the count can pass its range. -/
theorem ge_minApprovers_iff (pending : state.outcome = none) :
    UInt32.ofNat (state.record vote).approvers.length ≥ cfg.minApprovers ↔
      (state.record vote).approvers.length = cfg.minApprovers.toNat := by
  have most := ballot.length_record_le vote pending
  have range := cfg.minApprovers.toNat_lt
  rw [ge_iff_le, UInt32.le_iff_toNat_le, UInt32.toNat_ofNat_of_lt' (Nat.lt_of_le_of_lt most range)]
  exact ⟨Nat.le_antisymm most, Nat.le_of_eq ∘ Eq.symm⟩

end

/-- The outcome that a handle materialises copies the lists it was reached with. -/
theorem settled_materialise (nodup : state.voters.Nodup)
    (eligible : ∀ voter ∈ state.voters, voter ∈ cfg.of)
    (signed : Forall₂ (Signed votes) state.approvers state.signatures)
    {decision : String} (known : decision = "approve" ∨ decision = "deny")
    (approved : decision = "approve" → cfg.minApprovers.toNat ≤ state.approvers.length)
    (denied : decision = "deny" → state.approvers.length < cfg.minApprovers.toNat ∧
      cfg.of.length ≤ state.voters.length) (handle : QuorumHandle) (now : String) :
    Ballot cfg votes
      { state with outcome := some (handle.materialise now state decision) } where
  nodup := nodup
  eligible := eligible
  signed := signed
  pending := by simp
  sound := by
    intro result equal
    cases some.inj equal
    exact
      { decision := known
        approversNodup := (nodup_append.mp nodup).1
        approversEligible := fun approver member => eligible approver (mem_append_left _ member)
        ceremony := rfl
        signed := signed
        approved := approved
        denied := fun denial => ⟨rfl, denied denial⟩ }

/-- An accepted vote, up to the outcome. -/
theorem settle_record (ballot : Ballot cfg votes state) (same : handle.cfg = cfg)
    (eligible : vote.approver ∈ cfg.of) (first : vote.approver ∉ state.voters) :
    Ballot cfg (votes ++ [vote]) (handle.settle vote.now (state.record vote)) := by
  subst same
  have nodup := ballot.record_nodup first
  have allowed := ballot.record_eligible eligible
  have signed := ballot.record_signed vote
  cases settled : state.outcome with
  | some result =>
    have kept : (state.record vote).outcome = some result := by rw [state.record_outcome, settled]
    have sound := (ballot.sound result settled).later vote
    rw [QuorumHandle.settle_of_some kept]
    refine ⟨nodup, allowed, signed, fun pending => ?_, fun other equal => ?_⟩
    · rw [kept] at pending
      contradiction
    · cases some.inj (kept.symm.trans equal)
      -- after a denial there is no first vote any more
      exact { sound with
        denied := fun denial =>
          absurd (ballot.mem_voters_of_full (sound.denied denial).2.2 eligible) first }
  | none =>
    have pending : (state.record vote).outcome = none := by rw [state.record_outcome, settled]
    have most := ballot.length_record_le vote settled
    have due := ballot.ge_minApprovers_iff vote settled
    obtain ⟨enough, next⟩ | ⟨few, all, next⟩ | ⟨few, next⟩ :=
      handle.settle_cases pending vote.now
    · rw [next]
      exact settled_materialise nodup allowed signed (.inl rfl)
        (fun _ => Nat.le_of_eq (due.mp enough).symm) (by simp) handle vote.now
    · have less := Nat.lt_of_le_of_ne most (mt due.mpr few)
      have full : handle.cfg.of.length ≤ (state.record vote).voters.length := by
        rwa [QuorumState.voters, length_append]
      rw [next]
      exact settled_materialise nodup allowed signed (.inr rfl) (by simp)
        (fun _ => ⟨less, full⟩) handle vote.now
    · have less := Nat.lt_of_le_of_ne most (mt due.mpr few)
      rw [next]
      refine ⟨nodup, allowed, signed, fun _ => less, fun result equal => ?_⟩
      rw [pending] at equal
      contradiction

end Ballot

namespace QuorumHandle

theorem respondAs_outcome (settled : handle.outcome = some result) (vote : Vote) :
    (handle.respondAs vote).2.outcome = some result := by
  obtain ⟨_, dropped⟩ | ⟨_, _, next⟩ := handle.respondAs_cases vote
  · rw [dropped]
    exact settled
  · have kept : (handle.state.record vote).outcome = some result := by
      rw [handle.state.record_outcome]
      exact settled
    rw [next, outcome, settle_of_some kept]
    exact kept

theorem respondAll_outcome (settled : handle.outcome = some result) (later : List Vote) :
    (handle.respondAll later).outcome = some result := by
  induction later generalizing handle with
  | nil => exact settled
  | cons vote later ih => exact ih (respondAs_outcome settled vote)

end QuorumHandle

/-- Whatever the votes, the lists are duplicate-free, disjoint and eligible, an outcome stays
as it is, an approval has enough distinct approvers with one signature each, and a denial
comes with too few approvals. -/
theorem quorum_safety {cfg : QuorumConfig} {collector : QuorumApprovalCollector}
    (accepted : QuorumApprovalCollector.new cfg = .ok collector) (requestId startedAt : String)
    (votes : List Vote) :
    let handle := (collector.push requestId startedAt).respondAll votes
    handle.state.approvers.Nodup ∧ handle.state.deniers.Nodup ∧
      handle.state.approvers.Disjoint handle.state.deniers ∧
      (∀ approver ∈ handle.state.approvers, approver ∈ cfg.of) ∧
      (∀ denier ∈ handle.state.deniers, denier ∈ cfg.of) ∧
      ∀ result, handle.outcome = some result →
        (∀ later, (handle.respondAll later).outcome = some result) ∧
        (result.decision = "approve" ∨ result.decision = "deny") ∧
        (result.decision = "approve" →
          cfg.minApprovers.toNat ≤ result.approvers.length ∧ result.approvers.Nodup ∧
            (∀ approver ∈ result.approvers, approver ∈ cfg.of) ∧
            result.ceremony.approvers = result.approvers ∧
            Forall₂ (Signed votes) result.approvers result.ceremony.signatures) ∧
        (result.decision = "deny" →
          result.approvers.length < cfg.minApprovers.toNat ∧
            handle.state.approvers.length < cfg.minApprovers.toNat) := by
  intro handle
  obtain ⟨rfl, positive⟩ := QuorumApprovalCollector.of_new accepted
  have ballot : Ballot collector.cfg votes handle.state :=
    QuorumHandle.push_rule (Ballot.start positive) (fun ballot _ => ballot.later _)
      Ballot.settle_record requestId startedAt votes
  obtain ⟨approvers, deniers, apart⟩ := nodup_append.mp ballot.nodup
  refine ⟨approvers, deniers, ?_, ?_, ?_, fun result settled => ?_⟩
  · exact fun voter left right => apart voter left voter right rfl
  · exact fun approver member => ballot.eligible approver (mem_append_left _ member)
  · exact fun denier member => ballot.eligible denier (mem_append_right _ member)
  · have sound := ballot.sound result settled
    refine ⟨handle.respondAll_outcome settled, sound.decision, fun approval => ?_, fun denial => ?_⟩
    · exact ⟨sound.approved approval, sound.approversNodup, sound.approversEligible,
        sound.ceremony, sound.signed⟩
    · obtain ⟨kept, few, _⟩ := sound.denied denial
      rw [kept]
      exact ⟨few, few⟩

/-- A vote of the sample ballot below. -/
def sampleVote (approver decision : String) : Vote where
  approver := approver
  decision := decision
  signature := ⟨"ed25519", approver, "c2ln"⟩
  now := "2026-01-01T00:00:00Z"

/-- Repeated, ineligible and late votes change nothing about the outcome. -/
theorem two_of_three_settle :
    let votes := [sampleVote "ada" "approve", sampleVote "ada" "deny",
      sampleVote "mallory" "approve", sampleVote "bob" "approve", sampleVote "eve" "deny"]
    let collector : QuorumApprovalCollector := ⟨⟨2, ["ada", "bob", "eve"]⟩⟩
    let handle := (collector.push "req-1" "2026-01-01T00:00:00Z").respondAll votes
    ∃ result, handle.outcome = some result ∧ result.approvers = ["ada", "bob"] ∧
      result.ceremony.signatures.length = 2 ∧
      ∀ later, (handle.respondAll later).outcome = some result := by
  intro votes collector handle
  have accepted : QuorumApprovalCollector.new ⟨2, ["ada", "bob", "eve"]⟩ = .ok collector := rfl
  have safe := quorum_safety accepted "req-1" "2026-01-01T00:00:00Z" votes
  have settled : handle.outcome.map (fun result =>
      (result.approvers, result.ceremony.signatures.length)) = some (["ada", "bob"], 2) := by
    decide +kernel
  obtain ⟨result, known, lists⟩ := map_eq_some_iff.mp settled
  exact ⟨result, known, congrArg Prod.fst lists, congrArg Prod.snd lists,
    (safe.2.2.2.2.2 result known).1⟩

/-! ## Progress -/

/-- The vote of an actor that counts. -/
def firstVote (votes : List Vote) (actor : String) : Option Vote :=
  votes.find? fun vote => vote.approver = actor

/-- An eligible actor whose vote is to approve. -/
def Approves (cfg : QuorumConfig) (votes : List Vote) (actor : String) : Prop :=
  actor ∈ cfg.of ∧ ∃ vote, firstVote votes actor = some vote ∧ vote.decision = "approve"

/-- As many distinct actors approve as are asked for. -/
def Enough (cfg : QuorumConfig) (votes : List Vote) : Prop :=
  ∃ actors : List String, actors.Nodup ∧ (∀ actor ∈ actors, Approves cfg votes actor) ∧
    cfg.minApprovers.toNat ≤ actors.length

/-- Every eligible actor has cast a vote. -/
def Complete (cfg : QuorumConfig) (votes : List Vote) : Prop :=
  ∀ actor ∈ cfg.of, ∃ vote ∈ votes, vote.approver = actor

theorem firstVote_concat (votes : List Vote) (vote : Vote) (actor : String) :
    firstVote (votes ++ [vote]) actor =
      (firstVote votes actor).or (if vote.approver = actor then some vote else none) := by
  rw [firstVote, find?_append, find?_singleton, firstVote]
  simp

variable {actor : String}

theorem firstVote_eq_none_iff :
    firstVote votes actor = none ↔ ¬∃ vote ∈ votes, vote.approver = actor := by
  simp [firstVote]

theorem exists_concat_iff :
    (∃ cast ∈ votes ++ [vote], cast.approver = actor) ↔
      (∃ cast ∈ votes, cast.approver = actor) ∨ vote.approver = actor := by
  simp

/-- A vote changes nothing for the actors that are on record. -/
theorem approves_concat_of_voted (voted : ∃ vote ∈ votes, vote.approver = actor) (vote : Vote) :
    Approves cfg (votes ++ [vote]) actor ↔ Approves cfg votes actor := by
  obtain ⟨first, found⟩ := ne_none_iff_exists'.mp
    (mt firstVote_eq_none_iff.mp (not_not.mpr voted))
  rw [Approves, Approves, firstVote_concat, found, some_or]

theorem approves_concat_of_ne (other : vote.approver ≠ actor) :
    Approves cfg (votes ++ [vote]) actor ↔ Approves cfg votes actor := by
  rw [Approves, Approves, firstVote_concat, if_neg other, or_none]

namespace QuorumState

theorem mem_approvers_record (state : QuorumState) (vote : Vote) (actor : String) :
    actor ∈ (state.record vote).approvers ↔
      actor ∈ state.approvers ∨ actor = vote.approver ∧ vote.decision = "approve" := by
  unfold record
  split <;> rename_i decision
  · simp [decision]
  · simp [decision]

theorem length_approvers_record_le (state : QuorumState) (vote : Vote) :
    state.approvers.length ≤ (state.record vote).approvers.length := by
  unfold record
  split
  · simp
  · exact Nat.le_refl _

end QuorumState

namespace QuorumHandle

theorem settle_lists (handle : QuorumHandle) (now : String) (state : QuorumState) :
    (handle.settle now state).approvers = state.approvers ∧
      (handle.settle now state).voters = state.voters ∧
      (handle.settle now state).signatures = state.signatures := by
  unfold settle
  split_ifs <;> exact ⟨rfl, rfl, rfl⟩

/-- Without an outcome somebody is still expected. -/
theorem length_voters_lt_of_settle {now : String}
    (unsettled : (handle.settle now state).outcome = none) :
    state.voters.length < handle.cfg.of.length := by
  have pending : state.outcome = none := by
    cases settled : state.outcome with
    | none => rfl
    | some result => rw [settle_of_some settled, settled] at unsettled; contradiction
  by_contra all
  rw [Nat.not_lt, QuorumState.voters, length_append] at all
  unfold settle at unsettled
  split_ifs at unsettled with enough due
  exact due ⟨all, pending⟩

end QuorumHandle

/-- The signature came with the vote of the approver that counts. -/
def FirstSigned (votes : List Vote) (approver : String) (signature : QuorumSignature) : Prop :=
  ∃ vote, firstVote votes approver = some vote ∧ vote.signature = signature

theorem FirstSigned.later {approver : String} {signature : QuorumSignature}
    (signed : FirstSigned votes approver signature) (vote : Vote) :
    FirstSigned (votes ++ [vote]) approver signature := by
  obtain ⟨first, found, equal⟩ := signed
  exact ⟨first, by rw [firstVote_concat, found, some_or], equal⟩

/-- What the votes make of the lists. -/
structure Tally (cfg : QuorumConfig) (votes : List Vote) (state : QuorumState) : Prop where
  voted : ∀ actor, actor ∈ state.voters ↔ actor ∈ cfg.of ∧ ∃ vote ∈ votes, vote.approver = actor
  approving : ∀ actor, actor ∈ state.approvers ↔ Approves cfg votes actor
  signed : Forall₂ (FirstSigned votes) state.approvers state.signatures

namespace Tally

variable {cfg : QuorumConfig} {votes : List Vote} {state : QuorumState}

theorem start : Tally cfg [] {} where
  voted := by simp [QuorumState.voters]
  approving := by simp [Approves, firstVote]
  signed := .nil

/-- A vote that is dropped was nobody's first. -/
theorem dropped (tally : Tally cfg votes state)
    (known : vote.approver ∈ cfg.of → vote.approver ∈ state.voters) :
    Tally cfg (votes ++ [vote]) state where
  voted actor := by
    rw [tally.voted, exists_concat_iff]
    refine and_congr_right fun eligible => (or_iff_left_of_imp ?_).symm
    rintro rfl
    exact ((tally.voted _).mp (known eligible)).2
  approving actor := by
    rw [tally.approving]
    by_cases own : vote.approver = actor
    · subst own
      by_cases eligible : vote.approver ∈ cfg.of
      · exact (approves_concat_of_voted ((tally.voted _).mp (known eligible)).2 vote).symm
      · exact iff_of_false (fun approves => eligible approves.1) fun approves => eligible approves.1
    · exact (approves_concat_of_ne own).symm
  signed := tally.signed.imp fun _ _ signed => signed.later vote

/-- A first vote of an eligible actor, up to the outcome. -/
theorem record (tally : Tally cfg votes state) (_ : handle.cfg = cfg)
    (eligible : vote.approver ∈ cfg.of) (first : vote.approver ∉ state.voters) :
    Tally cfg (votes ++ [vote]) (handle.settle vote.now (state.record vote)) := by
  have missing : firstVote votes vote.approver = none :=
    firstVote_eq_none_iff.mpr fun cast => first ((tally.voted _).mpr ⟨eligible, cast⟩)
  have earlier := tally.signed.imp fun _ _ signed => FirstSigned.later signed vote
  refine ⟨fun actor => ?_, fun actor => ?_, ?_⟩
  · rw [(handle.settle_lists _ _).2.1, (state.perm_voters_record vote).mem_iff, mem_cons,
      tally.voted, exists_concat_iff, and_or_left, or_comm]
    refine or_congr_right ⟨?_, fun both => both.2.symm⟩
    rintro rfl
    exact ⟨eligible, rfl⟩
  · rw [(handle.settle_lists _ _).1, state.mem_approvers_record, tally.approving]
    by_cases own : vote.approver = actor
    · subst own
      simp [Approves, firstVote_concat, missing, eligible]
    · rw [approves_concat_of_ne own]
      exact or_iff_left fun both => own both.1.symm
  · rw [(handle.settle_lists _ _).1, (handle.settle_lists _ _).2.2, QuorumState.record]
    split
    · refine rel_append earlier (.cons ⟨vote, ?_, rfl⟩ .nil)
      rw [firstVote_concat, missing, none_or, if_pos rfl]
    · exact earlier

theorem of_push (collector : QuorumApprovalCollector) (requestId startedAt : String) :
    ∀ votes, Tally collector.cfg votes
      ((collector.push requestId startedAt).respondAll votes).state :=
  QuorumHandle.push_rule start dropped record requestId startedAt

end Tally

/-- How far the votes have brought the outcome. -/
structure Progress (cfg : QuorumConfig) (state : QuorumState) : Prop where
  open_ : state.outcome = none → state.voters.length < cfg.of.length
  approved : ∀ result, state.outcome = some result → result.decision = "approve" →
    cfg.minApprovers.toNat ≤ state.approvers.length

theorem Progress.record (progress : Progress cfg state) (same : handle.cfg = cfg) (vote : Vote) :
    Progress cfg (handle.settle vote.now (state.record vote)) where
  open_ unsettled := by
    have expected := QuorumHandle.length_voters_lt_of_settle unsettled
    rwa [(handle.settle_lists _ _).2.1, ← same]
  approved result settled approval := by
    rw [(handle.settle_lists _ _).1]
    cases before : state.outcome with
    | some earlier =>
      have kept : (state.record vote).outcome = some earlier := by rw [state.record_outcome, before]
      rw [QuorumHandle.settle_of_some kept, kept] at settled
      cases some.inj settled
      exact Nat.le_trans (progress.approved _ before approval)
        (state.length_approvers_record_le vote)
    | none =>
      have pending : (state.record vote).outcome = none := by rw [state.record_outcome, before]
      obtain ⟨enough, _⟩ | ⟨_, _, next⟩ | ⟨_, next⟩ := handle.settle_cases pending vote.now
      · rw [ge_iff_le, UInt32.le_iff_toNat_le, UInt32.toNat_ofNat', same] at enough
        exact Nat.le_trans enough (Nat.mod_le _ _)
      · rw [next] at settled
        cases some.inj settled
        exact absurd (show "deny" = "approve" from approval) (by decide)
      · rw [next, pending] at settled
        contradiction

theorem QuorumApprovalCollector.of_nonempty
    (accepted : QuorumApprovalCollector.new cfg = .ok collector) : 0 < cfg.of.length := by
  have positive := (QuorumApprovalCollector.of_new accepted).2
  obtain ⟨_, later⟩ := ite_eq_ok accepted
  obtain ⟨listed, _⟩ := ite_eq_ok later
  apply length_pos_iff.mpr
  rintro empty
  rw [empty, UInt32.lt_iff_toNat_lt] at listed
  exact listed positive

/-- Once every eligible actor has voted there is an outcome, the right one, exactly if nobody is
listed twice or enough actors approve: the distinct votes are counted against the length of the
list. -/
theorem quorum_decides_iff {cfg : QuorumConfig} {collector : QuorumApprovalCollector}
    (accepted : QuorumApprovalCollector.new cfg = .ok collector) (requestId startedAt : String)
    {votes : List Vote} (complete : Complete cfg votes) :
    (∃ result, ((collector.push requestId startedAt).respondAll votes).outcome = some result ∧
        (Enough cfg votes → result.decision = "approve")) ↔
      cfg.of.Nodup ∨ Enough cfg votes := by
  have nonempty := QuorumApprovalCollector.of_nonempty accepted
  obtain ⟨rfl, positive⟩ := QuorumApprovalCollector.of_new accepted
  have ballot := QuorumHandle.push_rule (Ballot.start positive) (fun ballot _ => ballot.later _)
    Ballot.settle_record requestId startedAt votes
  have tally := Tally.of_push collector requestId startedAt votes
  have progress := QuorumHandle.push_rule (P := fun _ state => Progress collector.cfg state)
    ⟨fun _ => nonempty, by simp⟩ (fun progress _ => progress)
    (fun progress same _ _ => progress.record same _) requestId startedAt votes
  rw [QuorumHandle.outcome]
  generalize ((collector.push requestId startedAt).respondAll votes).state = state
    at ballot tally progress ⊢
  have everybody : ∀ actor, actor ∈ state.voters ↔ actor ∈ collector.cfg.of := fun actor =>
    (tally.voted actor).trans (and_iff_left_of_imp (complete actor))
  have enough : Enough collector.cfg votes ↔
      collector.cfg.minApprovers.toNat ≤ state.approvers.length := by
    constructor
    · rintro ⟨actors, distinct, approve, count⟩
      exact Nat.le_trans count (distinct.subperm fun actor member =>
        (tally.approving actor).mpr (approve actor member)).length_le
    · intro count
      exact ⟨state.approvers, (nodup_append.mp ballot.nodup).1,
        fun actor member => (tally.approving actor).mp member, count⟩
  rw [enough]
  constructor
  · rintro ⟨result, settled, _⟩
    have sound := ballot.sound result settled
    obtain approval | denial := sound.decision
    · exact .inr (progress.approved result settled approval)
    · have full := (sound.denied denial).2.2
      have places := (ballot.nodup.subperm ballot.eligible).perm_of_length_le full
      exact .inl (places.nodup_iff.mp ballot.nodup)
  · intro due
    cases settled : state.outcome with
    | none =>
      have expected := progress.open_ settled
      have few := ballot.pending settled
      obtain distinct | many := due
      · have listed := (distinct.subperm fun actor => (everybody actor).mpr).length_le
        omega
      · omega
    | some result =>
      refine ⟨result, rfl, fun many => ?_⟩
      have sound := ballot.sound result settled
      obtain approval | denial := sound.decision
      · exact approval
      · obtain ⟨lists, few, _⟩ := sound.denied denial
        rw [lists] at many
        omega

/-- Three actors of whom one approves: two are asked for, so the outcome is a denial. -/
theorem three_votes_decide :
    ∃ result, (((QuorumApprovalCollector.mk ⟨2, ["ada", "bob", "eve"]⟩).push "req-1"
        "2026-01-01T00:00:00Z").respondAll [sampleVote "ada" "approve", sampleVote "bob" "deny",
          sampleVote "eve" "deny"]).outcome = some result := by
  have accepted : QuorumApprovalCollector.new ⟨2, ["ada", "bob", "eve"]⟩ = .ok ⟨_⟩ := rfl
  have complete : Complete ⟨2, ["ada", "bob", "eve"]⟩ [sampleVote "ada" "approve",
      sampleVote "bob" "deny", sampleVote "eve" "deny"] := by
    simp [Complete, sampleVote]
  obtain ⟨result, settled, _⟩ := (quorum_decides_iff accepted "req-1" "2026-01-01T00:00:00Z"
    complete).mpr (.inl (by decide))
  exact ⟨result, settled⟩

/-- An actor that is listed twice can only vote once. -/
theorem repeated_actor_undecided :
    QuorumApprovalCollector.new ⟨1, ["ada", "ada"]⟩ = .ok ⟨⟨1, ["ada", "ada"]⟩⟩ ∧
      Complete ⟨1, ["ada", "ada"]⟩ [sampleVote "ada" "deny"] ∧
      (((QuorumApprovalCollector.mk ⟨1, ["ada", "ada"]⟩).push "req-1"
        "2026-01-01T00:00:00Z").respondAll [sampleVote "ada" "deny"]).outcome = none := by
  refine ⟨rfl, ?_, by decide +kernel⟩
  simp [Complete, sampleVote]

/-! ## Signatures and approvers -/

/-- An outcome has been there before, or it has the lists of the state. -/
theorem QuorumHandle.settle_outcome {now : String}
    (settled : (handle.settle now state).outcome = some result) :
    state.outcome = some result ∨
      result.ceremony.approvers = state.approvers ∧
        result.ceremony.signatures = state.signatures := by
  unfold settle at settled
  split_ifs at settled
  · exact .inr (some.inj settled ▸ ⟨rfl, rfl⟩)
  · exact .inr (some.inj settled ▸ ⟨rfl, rfl⟩)
  · exact .inl settled

/-- Some vote settles, and no vote before it does. -/
theorem QuorumHandle.exists_settling (pending : handle.outcome = none) {votes : List Vote}
    (settled : (handle.respondAll votes).outcome = some result) :
    ∃ cast vote later, votes = cast ++ vote :: later ∧ (handle.respondAll cast).outcome = none ∧
      (handle.respondAll (cast ++ [vote])).outcome = some result := by
  induction votes using reverseRecOn with
  | nil => exact absurd (pending.symm.trans settled) (by simp)
  | append_singleton votes vote ih =>
    cases before : (handle.respondAll votes).outcome with
    | none => exact ⟨votes, vote, [], rfl, before, settled⟩
    | some earlier =>
      have kept := respondAs_outcome before vote
      rw [respondAll, foldl_concat] at settled
      rcases ih (before.trans (kept.symm.trans settled)) with ⟨cast, first, later, rfl, facts⟩
      exact ⟨cast, first, later ++ [vote], by simp, facts⟩

/-- The vote that settles leaves its lists in the outcome. -/
theorem QuorumHandle.lists_of_settling (pending : handle.outcome = none)
    (settled : (handle.respondAs vote).2.outcome = some result) :
    result.ceremony.approvers = (handle.respondAs vote).2.state.approvers ∧
      result.ceremony.signatures = (handle.respondAs vote).2.state.signatures := by
  obtain ⟨_, dropped⟩ | ⟨_, _, next⟩ := handle.respondAs_cases vote
  · rw [dropped, pending] at settled
    contradiction
  · rw [next] at settled ⊢
    rw [(handle.settle_lists _ _).1, (handle.settle_lists _ _).2.2]
    refine (settle_outcome settled).resolve_left fun before => ?_
    rw [handle.state.record_outcome] at before
    exact absurd (pending.symm.trans before) (by simp)

/-- The signers are the approvers exactly if every approver signed for itself. -/
theorem map_signer_eq_iff {approvers : List String} {signatures : List QuorumSignature}
    (signed : Forall₂ (FirstSigned votes) approvers signatures) :
    signatures.map QuorumSignature.signer = approvers ↔
      ∀ approver ∈ approvers, ∀ vote, firstVote votes approver = some vote →
        vote.signature.signer = approver := by
  induction signed with
  | nil => simp
  | cons signed _ ih =>
    obtain ⟨first, found, rfl⟩ := signed
    simp [ih, found]

/-! ## The TypeScript collector -/

namespace Script

/-- The variables of `push`.  An outcome that was resolved shares the lists. -/
structure State where
  approvers : List String := []
  deniers : List String := []
  signatures : List QuorumSignature := []
  /-- The decision and the time of the first call of `resolveOuter`. -/
  resolved : Option (String × String) := none

variable (cfg : QuorumConfig)

/-- `respondAs`.  The signer of the argument is not looked at. -/
def respondAs (state : State) (vote : Vote) : Bool × State :=
  if vote.approver ∉ cfg.of then (false, state)
  else if vote.approver ∈ state.approvers ∨ vote.approver ∈ state.deniers then (false, state)
  else
    let state :=
      if vote.decision = "approve" then
        { state with
          approvers := state.approvers ++ [vote.approver]
          signatures := state.signatures ++
            [⟨vote.signature.algorithm, vote.approver, vote.signature.signature⟩] }
      else { state with deniers := state.deniers ++ [vote.approver] }
    if state.approvers.length ≥ cfg.minApprovers.toNat then
      (true, { state with resolved := state.resolved.or (some ("approve", vote.now)) })
    else if state.approvers.length + state.deniers.length ≥ cfg.of.length then
      (true, { state with resolved := state.resolved.or (some ("deny", vote.now)) })
    else (true, state)

def respondAll (state : State) (votes : List Vote) : State :=
  votes.foldl (fun current vote => (respondAs cfg current vote).2) state

/-- What the promise holds, as it reads after the votes. -/
def outcome (requestId startedAt : String) (state : State) :
    Option QuorumOutcome :=
  state.resolved.map fun resolved =>
    { decision := resolved.1
      approvers := state.approvers
      deniers := state.deniers
      ceremony :=
        { ceremonyVersion := "1"
          ceremonyId := s!"cer-{requestId}-quorum"
          kind := "quorum"
          requestId := requestId
          startedAt := startedAt
          completedAt := some resolved.2
          minApprovers := cfg.minApprovers
          of := cfg.of
          approvers := state.approvers
          signatures := state.signatures } }

theorem signers_respondAs {state : State} (vote : Vote)
    (paired : state.signatures.map QuorumSignature.signer = state.approvers) :
    (respondAs cfg state vote).2.signatures.map QuorumSignature.signer =
      (respondAs cfg state vote).2.approvers := by
  simp only [respondAs]
  split_ifs <;> simp [paired]

theorem signers_respondAll {state : State} (votes : List Vote)
    (paired : state.signatures.map QuorumSignature.signer = state.approvers) :
    (respondAll cfg state votes).signatures.map QuorumSignature.signer =
      (respondAll cfg state votes).approvers := by
  induction votes generalizing state with
  | nil => exact paired
  | cons vote votes ih => exact ih (signers_respondAs cfg vote paired)

end Script

/-- In an outcome the signers are the approvers, one by one, exactly if every actor that approves
in the votes up to the one that settles signed its first vote itself.  In the TypeScript collector
they always are. -/
theorem signatures_belong_iff (collector : QuorumApprovalCollector) (requestId startedAt : String)
    (votes : List Vote) :
    (∀ result, ((collector.push requestId startedAt).respondAll votes).outcome = some result →
      ∃ cast vote later, votes = cast ++ vote :: later ∧
        ((collector.push requestId startedAt).respondAll cast).outcome = none ∧
        ((collector.push requestId startedAt).respondAll (cast ++ [vote])).outcome = some result ∧
        (∀ actor, actor ∈ result.ceremony.approvers ↔
          Approves collector.cfg (cast ++ [vote]) actor) ∧
        (result.ceremony.signatures.map QuorumSignature.signer = result.ceremony.approvers ↔
          ∀ actor, Approves collector.cfg (cast ++ [vote]) actor →
            ∀ own, firstVote (cast ++ [vote]) actor = some own → own.signature.signer = actor)) ∧
    ∀ result, Script.outcome collector.cfg requestId startedAt
        (Script.respondAll collector.cfg {} votes) = some result →
      result.ceremony.signatures.map QuorumSignature.signer = result.ceremony.approvers := by
  constructor
  · intro result settled
    obtain ⟨cast, vote, later, rfl, pending, settles⟩ := QuorumHandle.exists_settling rfl settled
    have tally := Tally.of_push collector requestId startedAt (cast ++ [vote])
    refine ⟨cast, vote, later, rfl, pending, settles, ?_⟩
    rw [QuorumHandle.respondAll, foldl_concat, ← QuorumHandle.respondAll] at settles tally
    obtain ⟨approvers, signatures⟩ := QuorumHandle.lists_of_settling pending settles
    rw [approvers, signatures, map_signer_eq_iff tally.signed]
    simp only [tally.approving, implies_true, true_and]
  · intro result settled
    obtain ⟨resolved, _, rfl⟩ := map_eq_some_iff.mp settled
    exact Script.signers_respondAll collector.cfg votes rfl

/-- A vote of one actor with the signature of another settles the request. -/
theorem foreign_signature_settles :
    let vote := { sampleVote "ada" "approve" with signature := ⟨"ed25519", "mallory", "c2ln"⟩ }
    let handle := ((QuorumApprovalCollector.mk ⟨1, ["ada"]⟩).push "req-1"
      "2026-01-01T00:00:00Z").respondAs vote
    handle.1 = true ∧ handle.2.outcome.map (fun result =>
      (result.ceremony.approvers, result.ceremony.signatures.map QuorumSignature.signer)) =
        some (["ada"], ["mallory"]) := by
  decide +kernel

end TrustForge.Quorum
