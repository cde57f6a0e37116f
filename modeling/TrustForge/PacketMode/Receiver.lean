import Mathlib.Data.Finset.Basic
import TrustForge.Foundation.RecentWindow
import TrustForge.Json.Idempotence
import TrustForge.PacketMode.SignVerify

/-!
# Replay protection

Model of `PacketReceiver` in `constrained.rs`, behind `verify_packet`.  The receiver holds
the identifiers of the last packets it accepted, so packets with one identifier are at
least a window apart.  The signature covers the identifier up to NFC normalisation only,
the window compares it as it is.
-/

namespace TrustForge.PacketMode

open Platform Signing.Toolkit List
open Json (Value)
open RecentWindow (recent push Spaced)
open Session (Key number32)

inductive PacketRejectReason where
  | replay
  | expired
  | futureDated
  deriving DecidableEq

inductive PacketReceiverDecision where
  | accept
  | reject (reason : PacketRejectReason)
  deriving DecidableEq

/-- `PacketReceiver`: identifiers with expiry times in order of arrival, and the set of the
identifiers. -/
structure PacketReceiver where
  seen : List (String × String)
  index : Finset String
  windowSize : Nat

namespace PacketReceiver

def new (windowSize : Option Nat) : PacketReceiver where
  seen := []
  index := ∅
  windowSize := windowSize.getD 4096

variable (receiver : PacketReceiver)

/-- The oldest entry leaves a full window. -/
def evict : PacketReceiver :=
  if receiver.windowSize ≤ receiver.seen.length then
    match receiver.seen with
    | [] => receiver
    | (oldest, _) :: rest =>
      { receiver with seen := rest, index := receiver.index.erase oldest }
  else receiver

variable (packet : Packet)

/-- The newest entry goes to the back. -/
def record : PacketReceiver :=
  { receiver with
    seen := receiver.seen ++ [(packet.packetId, packet.expiresAt.getD "")]
    index := insert packet.packetId receiver.index }

def observe (now : String) :
    PacketReceiverDecision × PacketReceiver :=
  if ∃ expires ∈ packet.expiresAt, expires < now then (.reject .expired, receiver)
  else if now < packet.createdAt then (.reject .futureDated, receiver)
  else if packet.packetId ∈ receiver.index then (.reject .replay, receiver)
  else (.accept, receiver.evict.record packet)

/-- The receiver holds the last identifiers of a log of accepted ones. -/
structure Tracks (receiver : PacketReceiver) (log : List String) : Prop where
  seen : receiver.seen.map Prod.fst = recent (max receiver.windowSize 1) log
  index : ∀ id, id ∈ receiver.index ↔ id ∈ receiver.seen.map Prod.fst
  spaced : Spaced (max receiver.windowSize 1) log

theorem tracks_new (windowSize : Option Nat) : (new windowSize).Tracks [] where
  seen := by simp [new, recent]
  index := by simp [new]
  spaced := RecentWindow.spaced_nil _

theorem windowSize_evict :
    receiver.evict.windowSize = receiver.windowSize := by
  unfold evict
  split
  · split <;> rfl
  · rfl

theorem windowSize_record : (receiver.record packet).windowSize = receiver.windowSize :=
  rfl

theorem seen_evict :
    receiver.evict.seen =
      if receiver.windowSize ≤ receiver.seen.length then receiver.seen.tail else receiver.seen := by
  unfold evict
  split
  · split
    · next empty => rw [empty, tail_nil]
    · next first => rw [first, tail_cons]
  · rfl

theorem seen_record_evict : (receiver.evict.record packet).seen.map Prod.fst =
      push receiver.windowSize (receiver.seen.map Prod.fst) packet.packetId := by
  rw [record, map_append, push, length_map, seen_evict]
  split
  · rw [map_tail, map_singleton]
  · rw [map_singleton]

/-- The index loses exactly the evicted identifier, because the window has no other entry
with it. -/
theorem mem_index_evict {receiver : PacketReceiver}
    (index : ∀ id, id ∈ receiver.index ↔ id ∈ receiver.seen.map Prod.fst)
    (nodup : (receiver.seen.map Prod.fst).Nodup) (id : String) :
    id ∈ receiver.evict.index ↔ id ∈ receiver.evict.seen.map Prod.fst := by
  unfold evict
  split
  · split
    · exact index id
    · next oldest time rest first =>
      rw [first, map_cons, nodup_cons] at nodup
      rw [Finset.mem_erase, index, first, map_cons, mem_cons]
      constructor
      · rintro ⟨other, same | later⟩
        · exact absurd same other
        · exact later
      · intro later
        refine ⟨?_, .inr later⟩
        rintro rfl
        exact nodup.1 later
  · exact index id

theorem mem_index_record_evict {receiver : PacketReceiver}
    (index : ∀ id, id ∈ receiver.index ↔ id ∈ receiver.seen.map Prod.fst)
    (nodup : (receiver.seen.map Prod.fst).Nodup) (packet : Packet) (id : String) :
    id ∈ (receiver.evict.record packet).index ↔
      id ∈ (receiver.evict.record packet).seen.map Prod.fst := by
  rw [record, Finset.mem_insert, mem_index_evict index nodup, map_append, mem_append,
    map_singleton, mem_singleton, or_comm]

/-- Accepting a packet whose identifier is not in the window. -/
theorem Tracks.record {receiver : PacketReceiver} {log : List String} {packet : Packet}
    (tracks : receiver.Tracks log) (fresh : packet.packetId ∉ receiver.index) :
    (receiver.evict.record packet).Tracks (log ++ [packet.packetId]) := by
  have size : (receiver.evict.record packet).windowSize = receiver.windowSize :=
    receiver.windowSize_evict
  refine ⟨?_, ?_, ?_⟩
  · rw [size, seen_record_evict, tracks.seen, RecentWindow.push_recent]
  · exact mem_index_record_evict tracks.index (tracks.seen ▸ tracks.spaced.nodup_recent) packet
  · rw [size]
    rw [tracks.index, tracks.seen] at fresh
    exact tracks.spaced.append fresh

end PacketReceiver

/-! ## Runs -/

/-- A packet that arrives, with the key it is verified with and the time. -/
structure Arrival where
  packet : Packet
  publicKey : Key
  now : String

namespace Platform

variable (platform : Platform)

/-- Verify an arriving packet and observe it if it is genuine. -/
def receive (receiver : PacketReceiver) (arrival : Arrival) :
    Option PacketReceiverDecision × PacketReceiver :=
  match platform.verifyPacket arrival.packet arrival.publicKey arrival.now with
  | .error _ => (none, receiver)
  | .ok _ =>
    let (decision, next) := receiver.observe arrival.packet arrival.now
    (some decision, next)

/-- The packets that are accepted, in order. -/
def accepted (receiver : PacketReceiver) : List Arrival → List Packet
  | [] => []
  | arrival :: arrivals =>
    let (decision, next) := platform.receive receiver arrival
    if decision = some .accept then arrival.packet :: accepted next arrivals
    else accepted next arrivals

/-- A genuine, current packet. -/
def Welcome (arrival : Arrival) : Prop :=
  (∃ payload, platform.verifyPacket arrival.packet arrival.publicKey arrival.now = .ok payload) ∧
    (¬∃ expires ∈ arrival.packet.expiresAt, expires < arrival.now) ∧
    ¬arrival.now < arrival.packet.createdAt

variable {receiver : PacketReceiver} {arrival : Arrival}

/-- A welcome packet with an identifier outside the window is accepted. -/
theorem accepted_cons_of_fresh (welcome : platform.Welcome arrival)
    (fresh : arrival.packet.packetId ∉ receiver.index) (arrivals : List Arrival) :
    platform.accepted receiver (arrival :: arrivals) =
      arrival.packet :: platform.accepted (receiver.evict.record arrival.packet) arrivals := by
  rcases welcome with ⟨⟨payload, genuine⟩, current, dated⟩
  have observed : receiver.observe arrival.packet arrival.now =
      (.accept, receiver.evict.record arrival.packet) := by
    rw [PacketReceiver.observe, if_neg current, if_neg dated, if_neg fresh]
  simp [accepted, receive, genuine, observed]

/-- Any other packet changes nothing. -/
theorem accepted_cons_of_rejected
    (rejected : ¬(platform.Welcome arrival ∧ arrival.packet.packetId ∉ receiver.index))
    (arrivals : List Arrival) :
    platform.accepted receiver (arrival :: arrivals) = platform.accepted receiver arrivals := by
  rw [accepted, receive]
  cases genuine : platform.verifyPacket arrival.packet arrival.publicKey arrival.now with
  | error reason => rfl
  | ok payload =>
    have observed : ∃ reason, receiver.observe arrival.packet arrival.now =
        (.reject reason, receiver) := by
      unfold PacketReceiver.observe
      split_ifs with expired early known
      · exact ⟨_, rfl⟩
      · exact ⟨_, rfl⟩
      · exact ⟨_, rfl⟩
      · exact absurd ⟨⟨⟨payload, genuine⟩, expired, early⟩, known⟩ rejected
    rcases observed with ⟨reason, observed⟩
    simp [observed]

/-- Over a run the accepted identifiers stay spaced. -/
theorem spaced_accepted {log : List String} (tracks : receiver.Tracks log)
    (arrivals : List Arrival) :
    Spaced (max receiver.windowSize 1)
      (log ++ (platform.accepted receiver arrivals).map PacketOf.packetId) := by
  induction arrivals generalizing receiver log with
  | nil => simpa [accepted] using tracks.spaced
  | cons arrival arrivals ih =>
    by_cases taken : platform.Welcome arrival ∧ arrival.packet.packetId ∉ receiver.index
    · have later := ih (tracks.record taken.2)
      rw [PacketReceiver.windowSize_record, PacketReceiver.windowSize_evict, append_assoc] at later
      rwa [accepted_cons_of_fresh platform taken.1 taken.2, map_cons, ← singleton_append]
    · rw [accepted_cons_of_rejected platform taken]
      exact ih tracks

theorem mem_of_mem_accepted {arrivals : List Arrival} {packet : Packet}
    (member : packet ∈ platform.accepted receiver arrivals) :
    ∃ arrival ∈ arrivals, arrival.packet = packet ∧ platform.Welcome arrival := by
  induction arrivals generalizing receiver with
  | nil => cases member
  | cons arrival arrivals ih =>
    rw [exists_mem_cons_iff]
    by_cases taken : platform.Welcome arrival ∧ arrival.packet.packetId ∉ receiver.index
    · rw [accepted_cons_of_fresh platform taken.1 taken.2, mem_cons] at member
      exact member.imp (fun own => ⟨own.symm, taken.1⟩) ih
    · rw [accepted_cons_of_rejected platform taken] at member
      exact .inr (ih member)

/-! ## Digests and identifiers -/

theorem isSome_reread_fragment (runtime : Json.Runtime) (header : FragmentHeaderOf UInt32) :
    (runtime.reread (Json.recursionLimit - 1) (header.toValue number32)).isSome = true := by
  rw [FragmentHeaderOf.toValue, runtime.reread_object_isSome_iff _ (by decide)]
  simp [Session.isSome_reread_string, Session.reread_number32]

theorem isSome_reread_signedFields (runtime : Json.Runtime) (p : Packet) :
    (runtime.reread Json.recursionLimit (.object (p.signedFields number32))).isSome = true := by
  rw [runtime.reread_object_isSome_iff _ (by decide)]
  simp only [PacketOf.signedFields, forall_mem_append, Session.forall_optionalField_iff,
    Signing.strings, Session.isSome_reread_strings, Session.reread_number32, isSome_reread_fragment]
  simp [Json.Runtime.reread]

/-- Equal signed texts have one identifier up to normalisation. -/
theorem nfc_packetId_eq {p q : Packet}
    (same : platform.canonicalize (.object (p.signedFields number32)) =
      platform.canonicalize (.object (q.signedFields number32))) :
    platform.nfc p.packetId = platform.nfc q.packetId := by
  have texts := congrArg (· ++ ([] : List Char)) (String.ofList_injective same)
  have fields := (Session.rereadField_eq_of_append platform.toRuntime
    (plainKeys_signedFields number32 p) (plainKeys_signedFields number32 q)
    (isSome_reread_signedFields _ p) Json.Runtime.endsNumber_nil Json.Runtime.endsNumber_nil
    texts).1 "packet_id"
  have found (r : Packet) :
      AssocMap.get? "packet_id" (r.signedFields number32) = some (.string r.packetId) := by
    rfl
  simpa [Session.rereadField, found, Json.Runtime.reread] using fields

/-- The signature does not cover how an identifier is composed. -/
theorem packetSigningBytes_of_nfc_eq {p q : Packet} {id : String}
    (others : q.signedFields number32 = { p with packetId := id }.signedFields number32)
    (same : platform.nfc id = platform.nfc p.packetId) :
    platform.packetSigningBytes q = platform.packetSigningBytes p := by
  have encoded : platform.encodeEntries (q.signedFields number32) =
      platform.encodeEntries (p.signedFields number32) := by
    rw [others, Json.Runtime.encodeEntries_eq_map, Json.Runtime.encodeEntries_eq_map]
    simp [PacketOf.signedFields, Json.Runtime.encode_string, same]
  rw [packetSigningBytes_eq, packetSigningBytes_eq, Json.Runtime.canonicalize,
    Json.Runtime.canonicalize, Json.Runtime.encode, Json.Runtime.encode, encoded]

/-- Packets with one digest are accepted only with a window of other packets between them. -/
def DigestsSpaced (windowSize : Option Nat) (arrivals : List Arrival) : Prop :=
  ∀ (i j : Nat) (p q : Packet), i < j →
    (platform.accepted (.new windowSize) arrivals)[i]? = some p →
    (platform.accepted (.new windowSize) arrivals)[j]? = some q →
    platform.packetSigningBytes p = platform.packetSigningBytes q →
    i + max (windowSize.getD 4096) 1 < j

variable {platform} {windowSize : Option Nat} {arrivals : List Arrival}

theorem digestsSpaced_of_packetId_eq (named : ∀ p ∈ platform.accepted (.new windowSize) arrivals,
      ∀ q ∈ platform.accepted (.new windowSize) arrivals,
        platform.packetSigningBytes p = platform.packetSigningBytes q → p.packetId = q.packetId) :
    platform.DigestsSpaced windowSize arrivals := by
  intro i j p q before atI atJ digest
  have id := named p (mem_of_getElem? atI) q (mem_of_getElem? atJ) digest
  have spaced := platform.spaced_accepted (PacketReceiver.tracks_new windowSize) arrivals
  rw [nil_append] at spaced
  exact spaced i j p.packetId before (by rw [List.getElem?_map, atI, Option.map_some])
    (by rw [List.getElem?_map, atJ, Option.map_some, id])

/-- Where one of two welcome packets with one digest is accepted right after the other. -/
theorem packetId_eq_of_digestsSpaced {a b : Arrival} (first : platform.Welcome a)
    (second : platform.Welcome b) (spaced : platform.DigestsSpaced windowSize [a, b])
    (digest : platform.packetSigningBytes a.packet = platform.packetSigningBytes b.packet) :
    a.packet.packetId = b.packet.packetId := by
  by_contra other
  have both : platform.accepted (.new windowSize) [a, b] = [a.packet, b.packet] := by
    rw [accepted_cons_of_fresh platform first (by simp [PacketReceiver.new]),
      accepted_cons_of_fresh platform second (by
        simp [PacketReceiver.new, PacketReceiver.evict, PacketReceiver.record, Ne.symm other])]
    rfl
  have far := spaced 0 1 a.packet b.packet one_pos (by rw [both]; rfl) (by rw [both]; rfl) digest
  omega

variable (platform)

/-- Replay protection.  Whatever is made of some arrivals, packets with one digest are spaced if
and only if the welcome ones among them that have one digest have one identifier.

In any one run they are if identifiers of accepted packets that are equal after normalisation are
equal, and the digests at hand do not collide. -/
theorem accepted_digests_spaced (windowSize : Option Nat) (traffic : Set Arrival) :
    ((∀ arrivals, (∀ arrival ∈ arrivals, arrival ∈ traffic) →
        platform.DigestsSpaced windowSize arrivals) ↔
      ∀ a ∈ traffic, ∀ b ∈ traffic, platform.Welcome a → platform.Welcome b →
        platform.packetSigningBytes a.packet = platform.packetSigningBytes b.packet →
          a.packet.packetId = b.packet.packetId) ∧
    ∀ arrivals, (∀ p ∈ platform.accepted (.new windowSize) arrivals,
      ∀ q ∈ platform.accepted (.new windowSize) arrivals,
        (platform.nfc p.packetId = platform.nfc q.packetId → p.packetId = q.packetId) ∧
        (platform.packetSigningBytes p = platform.packetSigningBytes q →
          platform.signingText (p.toValue number32) = platform.signingText (q.toValue number32))) →
      platform.DigestsSpaced windowSize arrivals := by
  refine ⟨⟨?_, ?_⟩, ?_⟩
  · intro spaced a inA b inB first second digest
    refine packetId_eq_of_digestsSpaced first second (spaced [a, b] ?_) digest
    simp [inA, inB]
  · intro named arrivals inside
    refine digestsSpaced_of_packetId_eq fun p memP q memQ digest => ?_
    rcases platform.mem_of_mem_accepted memP with ⟨a, inA, rfl, first⟩
    rcases platform.mem_of_mem_accepted memQ with ⟨b, inB, rfl, second⟩
    exact named a (inside a inA) b (inside b inB) first second digest
  · intro arrivals apart
    refine digestsSpaced_of_packetId_eq fun p memP q memQ digest => ?_
    have text := (apart p memP q memQ).2 digest
    rw [signingText, signingText, withoutSignature_toValue, withoutSignature_toValue] at text
    exact (apart p memP q memQ).1 (platform.nfc_packetId_eq text)

end Platform

/-! ## A packet under two names -/

/-- Packets that differ in their identifier only. -/
def namedArgs (id : String) : SignPacketArgs :=
  { sampleArgs none with packetId := id, compression := none }

variable (platform : Platform)

def Platform.namedPacket (id : String) : Packet :=
  platform.signDraft (Key.filled [7])
    (draft "2026-01-01T00:00:00Z" (namedArgs id) (cborEnvelope [1, 2]))

/-- The packet arrives when it was made. -/
def Platform.namedArrival (id : String) : Arrival where
  packet := platform.namedPacket id
  publicKey := platform.ed25519Public (Key.filled [7])
  now := "2026-01-01T00:00:00Z"

theorem welcome_namedArrival (id : String) : platform.Welcome (platform.namedArrival id) := by
  have signed : platform.signPacket "2026-01-01T00:00:00Z" (namedArgs id) =
      .ok (platform.namedPacket id) := by
    rw [signPacket, if_neg (by simp [namedArgs, sampleArgs])]
    simp only [namedArgs]
    rfl
  rcases @verifyPacket_of_signPacket platform _ "2026-01-01T00:00:00Z" _ _ signed rfl
    (by simp [namedArgs, sampleArgs]) with ⟨bytes, sealed, verified⟩
  refine ⟨⟨_, verified.trans ((platform.openPayload_sealPayload sealed).mpr (.inl rfl))⟩, ?_,
    lt_irrefl _⟩
  rintro ⟨expires, ⟨⟩, -⟩

/-- The transparent primitives with the composing normalisation. -/
def composing : Platform :=
  { transparent with
    nfc := Json.Runtime.composing.nfc
    nfc_ascii := Json.Runtime.composing.nfc_ascii }

/-- A packet and a copy of it with a decomposed identifier, which has the same digest, are
both accepted, one right after the other. -/
theorem decomposed_copy_accepted :
    composing.accepted (.new none) (["\u00e9", "e\u0301"].map composing.namedArrival) =
        ["\u00e9", "e\u0301"].map composing.namedPacket ∧
      composing.packetSigningBytes (composing.namedPacket "\u00e9") =
        composing.packetSigningBytes (composing.namedPacket "e\u0301") := by
  constructor
  · simp only [map_cons]
    rw [accepted_cons_of_fresh composing (welcome_namedArrival composing _)
        (show "\u00e9" ∉ (∅ : Finset String) by decide),
      accepted_cons_of_fresh composing (welcome_namedArrival composing _)
        (show "e\u0301" ∉ insert "\u00e9" (∅ : Finset String) by decide)]
    rfl
  · exact (composing.packetSigningBytes_of_nfc_eq rfl (by decide +kernel)).symm

end TrustForge.PacketMode
