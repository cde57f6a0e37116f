import TrustForge.Foundation.Bounded
import TrustForge.Foundation.Transition
import TrustForge.PacketMode.Receiver

/-!
# The receivers without a standard library

Model of `nonce_cache.rs`: a `PacketReceiver` over a growing queue and one over a queue of
a fixed capacity.  Both, and the receiver of `constrained.rs`, decide like one window of
identifiers.
-/

namespace TrustForge.NoStd

open List
open PacketMode (Packet PacketReceiver PacketReceiverDecision PacketRejectReason)
open RecentWindow (push)
open Transition (outputs)

def packetIdCap : Nat := 64

inductive RejectReason where
  | replay
  | expired
  | futureDated
  | idTooLarge
  | cacheFull
  deriving DecidableEq

inductive ReceiverDecision where
  | accept
  | reject (reason : RejectReason)
  deriving DecidableEq

/-- A packet observed at a time, as far as the receivers read it. -/
structure Observation where
  packet : Packet
  now : String

/-! ## With an allocator -/

/-- `PacketReceiver` over a `VecDeque`. -/
structure AllocReceiver where
  seen : List (String × String)
  capacity : Nat

namespace AllocReceiver

def new (capacity : Nat) : AllocReceiver where
  seen := []
  capacity := max capacity 1

def observe (receiver : AllocReceiver) (packetId : String) (expiresAt : Option String)
    (now : String) : ReceiverDecision × AllocReceiver :=
  if ∃ exp ∈ expiresAt, exp < now then (.reject .expired, receiver)
  else if receiver.seen.any fun entry => entry.1 == packetId then (.reject .replay, receiver)
  else
    let kept := if receiver.capacity ≤ receiver.seen.length then receiver.seen.tail else receiver.seen
    (.accept, { receiver with seen := kept ++ [(packetId, expiresAt.getD "")] })

def step (receiver : AllocReceiver) (o : Observation) : ReceiverDecision × AllocReceiver :=
  receiver.observe o.packet.packetId o.packet.expiresAt o.now

end AllocReceiver

/-! ## Without one -/

/-- `PacketReceiver<N>` over a `heapless::Deque`. -/
structure HeaplessReceiver (n : Nat) where
  seen : Bounded.Deque (Bounded.Str packetIdCap) n

namespace HeaplessReceiver

variable {n : Nat}

def new : HeaplessReceiver n where
  seen := .empty

def observe (receiver : HeaplessReceiver n) (packetId : String) (expiresAt : Option String)
    (now : String) : ReceiverDecision × HeaplessReceiver n :=
  if ∃ exp ∈ expiresAt, exp < now then (.reject .expired, receiver)
  else
    match Bounded.Str.empty.pushStr packetId with
    | none => (.reject .idTooLarge, receiver)
    | some hid =>
      if receiver.seen.items.any fun s => s == hid then (.reject .replay, receiver)
      else
        let kept := if receiver.seen.isFull then receiver.seen.popFront else receiver.seen
        match kept.pushBack hid with
        | none => (.reject .cacheFull, ⟨kept⟩)
        | some seen => (.accept, ⟨seen⟩)

def step (receiver : HeaplessReceiver n) (o : Observation) : ReceiverDecision × HeaplessReceiver n :=
  receiver.observe o.packet.packetId o.packet.expiresAt o.now

end HeaplessReceiver

/-! ## With the standard library -/

/-- A decision of the receiver of `constrained.rs`, in the words of this crate. -/
def decisionOf : PacketReceiverDecision → ReceiverDecision
  | .accept => .accept
  | .reject .replay => .reject .replay
  | .reject .expired => .reject .expired
  | .reject .futureDated => .reject .futureDated

def stdStep (receiver : PacketReceiver) (o : Observation) : ReceiverDecision × PacketReceiver :=
  let (decision, next) := receiver.observe o.packet o.now
  (decisionOf decision, next)

/-! ## One window of identifiers -/

/-- What the receivers are for: the identifiers of the last `n` accepted packets are refused. -/
def windowStep (n : Nat) (window : List String) (o : Observation) :
    ReceiverDecision × List String :=
  if ∃ expires ∈ o.packet.expiresAt, expires < o.now then (.reject .expired, window)
  else if o.packet.packetId ∈ window then (.reject .replay, window)
  else (.accept, push n window o.packet.packetId)

/-- An allocating receiver holds the window. -/
structure AllocReceiver.Holds (n : Nat) (receiver : AllocReceiver) (window : List String) : Prop where
  capacity : receiver.capacity = n
  seen : receiver.seen.map Prod.fst = window

variable {window : List String}

theorem AllocReceiver.Holds.step {n : Nat} {receiver : AllocReceiver}
    (holds : receiver.Holds n window) (o : Observation) :
    (receiver.step o).1 = (windowStep n window o).1 ∧
      (receiver.step o).2.Holds n (windowStep n window o).2 := by
  obtain ⟨rfl, rfl⟩ := holds
  have known : (receiver.seen.any fun entry => entry.1 == o.packet.packetId) = true ↔
      o.packet.packetId ∈ receiver.seen.map Prod.fst := by
    simp
  unfold AllocReceiver.step AllocReceiver.observe windowStep
  by_cases late : ∃ exp ∈ o.packet.expiresAt, exp < o.now
  · rw [if_pos late, if_pos late]
    exact ⟨rfl, rfl, rfl⟩
  · rw [if_neg late, if_neg late]
    by_cases mem : o.packet.packetId ∈ receiver.seen.map Prod.fst
    · rw [if_pos (known.mpr mem), if_pos mem]
      exact ⟨rfl, rfl, rfl⟩
    · rw [if_neg (mt known.mp mem), if_neg mem]
      refine ⟨rfl, rfl, ?_⟩
      rw [push, length_map, map_append]
      split
      · rw [map_tail, map_singleton]
      · rw [map_singleton]

/-- A receiver of a fixed capacity holds the window. -/
def HeaplessReceiver.Holds {n : Nat} (receiver : HeaplessReceiver n) (window : List String) : Prop :=
  receiver.seen.items.map Bounded.Str.text = window

/-- With room for one identifier, and one that fits, nothing but the window decides. -/
theorem HeaplessReceiver.Holds.step {n : Nat} (positive : 1 ≤ n) {receiver : HeaplessReceiver n}
    (holds : receiver.Holds window) (o : Observation)
    (short : (Text.utf8 o.packet.packetId).length ≤ packetIdCap) :
    (receiver.step o).1 = (windowStep n window o).1 ∧
      (receiver.step o).2.Holds (windowStep n window o).2 := by
  cases holds
  have known : (receiver.seen.items.any fun s => s == ⟨o.packet.packetId, short⟩) = true ↔
      o.packet.packetId ∈ receiver.seen.items.map Bounded.Str.text := by
    rw [any_eq_true, mem_map]
    refine exists_congr fun s => and_congr_right fun _ => ?_
    rw [beq_iff_eq, Bounded.Str.ext_iff]
  unfold HeaplessReceiver.step HeaplessReceiver.observe windowStep
  by_cases late : ∃ exp ∈ o.packet.expiresAt, exp < o.now
  · rw [if_pos late, if_pos late]
    exact ⟨rfl, rfl⟩
  · rw [if_neg late, if_neg late, Bounded.Str.pushStr_empty short]
    by_cases mem : o.packet.packetId ∈ receiver.seen.items.map Bounded.Str.text
    · simp only [known.mpr mem, mem, ↓reduceIte, true_and]
      rfl
    · simp only [mt known.mp mem, mem, ↓reduceIte, Bool.false_eq_true]
      obtain ⟨seen, pushed, items⟩ := receiver.seen.pushBack_evicted positive ⟨o.packet.packetId, short⟩
      rw [pushed]
      refine ⟨rfl, ?_⟩
      rw [Holds, items, push, length_map, map_append]
      split
      · rw [map_tail, map_singleton]
      · rw [map_singleton]

/-- The receiver of `constrained.rs` holds the window. -/
structure StdHolds (n : Nat) (receiver : PacketReceiver) (window : List String) : Prop where
  windowSize : receiver.windowSize = n
  seen : receiver.seen.map Prod.fst = window
  tracks : ∃ log, receiver.Tracks log

/-- Its check of the creation time never fires for a packet that is not from the future. -/
theorem StdHolds.step {n : Nat} {receiver : PacketReceiver} (holds : StdHolds n receiver window)
    (o : Observation) (dated : o.packet.createdAt ≤ o.now) :
    (stdStep receiver o).1 = (windowStep n window o).1 ∧
      StdHolds n (stdStep receiver o).2 (windowStep n window o).2 := by
  obtain ⟨rfl, rfl, log, tracks⟩ := holds
  have known := tracks.index o.packet.packetId
  unfold stdStep PacketReceiver.observe windowStep
  by_cases late : ∃ exp ∈ o.packet.expiresAt, exp < o.now
  · rw [if_pos late, if_pos late]
    exact ⟨rfl, rfl, rfl, log, tracks⟩
  · rw [if_neg late, if_neg late, if_neg (not_lt.mpr dated)]
    by_cases mem : o.packet.packetId ∈ receiver.index
    · rw [if_pos mem, if_pos (known.mp mem)]
      exact ⟨rfl, rfl, rfl, log, tracks⟩
    · rw [if_neg mem, if_neg (mt known.mpr mem)]
      exact ⟨rfl, receiver.windowSize_evict, receiver.seen_record_evict o.packet, _,
        tracks.record mem⟩

/-- The three receivers accept and reject the same packets, for the same reasons. -/
theorem receivers_agree {n : Nat} (positive : 1 ≤ n) (observations : List Observation)
    (short : ∀ o ∈ observations, (Text.utf8 o.packet.packetId).length ≤ packetIdCap)
    (dated : ∀ o ∈ observations, o.packet.createdAt ≤ o.now) :
    outputs stdStep (.new (some n)) observations =
        outputs AllocReceiver.step (.new n) observations ∧
      outputs AllocReceiver.step (.new n) observations =
        outputs HeaplessReceiver.step (.new : HeaplessReceiver n) observations := by
  have std : outputs stdStep (.new (some n)) observations =
      outputs (windowStep n) [] observations :=
    Transition.outputs_eq (R := StdHolds n) (fun _ _ o mem holds => StdHolds.step holds o (dated o mem))
      ⟨rfl, rfl, [], PacketReceiver.tracks_new (some n)⟩
  have alloc : outputs AllocReceiver.step (.new n) observations =
      outputs (windowStep n) [] observations :=
    Transition.outputs_eq (R := AllocReceiver.Holds n) (fun _ _ o _ holds => AllocReceiver.Holds.step holds o)
      ⟨max_eq_left positive, rfl⟩
  have heapless : outputs HeaplessReceiver.step (.new : HeaplessReceiver n) observations =
      outputs (windowStep n) [] observations :=
    Transition.outputs_eq (R := HeaplessReceiver.Holds)
      (fun _ _ o mem holds => HeaplessReceiver.Holds.step positive holds o (short o mem)) rfl
  exact ⟨std.trans alloc.symm, alloc.trans heapless.symm⟩

/-- A named packet that is observed when it was made. -/
def observed (id : String) : Observation where
  packet := PacketMode.transparent.namedPacket id
  now := "2026-01-01T00:00:00Z"

/-- With windows of one identifier, a packet that is repeated at once is refused and one that
comes back later is not. -/
theorem receivers_agree_one :
    outputs stdStep (.new (some 1)) (["pkt-1", "pkt-1", "pkt-2", "pkt-1"].map observed) =
        [.accept, .reject .replay, .accept, .accept] ∧
      outputs stdStep (.new (some 1)) (["pkt-1", "pkt-1", "pkt-2", "pkt-1"].map observed) =
        outputs HeaplessReceiver.step (.new : HeaplessReceiver 1)
          (["pkt-1", "pkt-1", "pkt-2", "pkt-1"].map observed) := by
  constructor
  · decide
  · have agree := receivers_agree (le_refl 1)
      (["pkt-1", "pkt-1", "pkt-2", "pkt-1"].map observed) (by decide) (by decide)
    exact agree.1.trans agree.2

end TrustForge.NoStd
