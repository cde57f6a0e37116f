import TrustForge.BinaryFormat.Bodies
import TrustForge.Session.Transcript

/-!
# One container in both languages

A container is its body between lengths, so the languages write the same bundle where
they write the same body.  The body of a packet has fixed keys, which both sort alike.
-/

namespace TrustForge.BinaryFormat

open List
open Cbor.Script (JsValue)
open Json (Value)

namespace Script

/-! ## Containers -/

theorem putU32BE_eq_ok_iff (n : Nat) (len : Bytes) :
    putU32BE n = .ok len ↔ n ≤ 0xffffffff ∧ BigEndian.encode 4 n = len := by
  unfold putU32BE
  by_cases large : 0xffffffff < n
  · rw [if_pos large]
    exact iff_of_false nofun fun both => absurd both.1 (not_le_of_gt large)
  · rw [if_neg large, Except.ok.injEq, (Cbor.Script.encode_eq_map_shift n).2.1]
    simp only [Cbor.Script.ofNat_and_byte]
    exact (and_iff_right (le_of_not_gt large)).symm

theorem writeTfbundle_eq_ok_iff (body : JsValue) (signature : Option Bytes) (out : Bytes) :
    writeTfbundle body signature = .ok out ↔
      ∃ bytes, canonicalCborEncode body = .ok bytes ∧ bytes.length ≤ 0xffffffff ∧
        (signature.getD []).length ≤ 0xffffffff ∧ tfbundle bytes (signature.getD []) = out :=
  bundled_eq_ok_iff putU32BE_eq_ok_iff (canonicalCborEncode body) (signature.getD []) out

theorem writeTfpkt_eq_ok_iff (packet : JsValue) (out : Bytes) :
    writeTfpkt packet = .ok out ↔
      ∃ bytes, canonicalCborEncode packet = .ok bytes ∧ bytes.length ≤ 0xffffffff ∧
        tfpkt bytes = out :=
  packed_eq_ok_iff putU32BE_eq_ok_iff (canonicalCborEncode packet) out

end Script

/-! ## Packets -/

/-- The keys of a signature, in the order of its fields. -/
def SignatureEnvelope.keys : List String :=
  ["algorithm", "signer", "signature"] ++ ["hash_alg"] ++ ["alt_algorithm"] ++ ["alt_signature"]

theorem SignatureEnvelope.keys_fields_sublist (envelope : SignatureEnvelope) :
    (AssocMap.keys envelope.fields).Sublist keys := by
  simp only [fields, AssocMap.keys, map_append]
  repeat' apply List.Sublist.append
  all_goals first | exact List.Sublist.refl _ | exact Session.keys_optionalField_sublist _ _

/-- The keys of a packet, in the order of its fields. -/
def Packet.keys : List String :=
  ["packet_version", "packet_id", "source", "destination", "priority"] ++ ["emergency"] ++
    ["created_at"] ++ ["expires_at"] ++ ["ttl_hops"] ++ ["route_constraints"] ++ ["encoding"] ++
    ["compression"] ++ ["payload"] ++ ["session_ref"] ++ ["fragment"] ++ ["signature"]

theorem Packet.keys_fields_sublist (p : Packet) : (AssocMap.keys p.fields).Sublist keys := by
  simp only [fields, AssocMap.keys, map_append]
  repeat' apply List.Sublist.append
  all_goals first | exact List.Sublist.refl _ | exact Session.keys_optionalField_sublist _ _

namespace Script

variable (levels : Nat)

/-- A value that takes fewer levels, with distinct keys in order. -/
def Within (v : Value) : Prop :=
  (fromJson v).depth < levels ∧ keysInOrder v = true ∧ v.distinctKeys = true

theorem within_string (s : String) : Within (levels + 1) (.string s) :=
  ⟨Nat.succ_pos levels, rfl, rfl⟩

theorem within_bool (b : Bool) : Within (levels + 1) (.bool b) :=
  ⟨Nat.succ_pos levels, rfl, rfl⟩

theorem within_number64 (i : Int64) : Within (levels + 1) (number64 i) := by
  unfold number64
  split <;> exact ⟨Nat.succ_pos levels, rfl, rfl⟩

theorem within_strings (texts : List String) :
    Within (levels + 2) (Signing.strings texts) := by
  rw [Within, Signing.strings, Nat.lt_succ_iff, depth_array_le_iff, keysInOrder_array_iff,
    Value.distinctKeys, Value.distinctKeysArray_iff]
  simp only [forall_mem_map]
  exact ⟨fun _ _ => Nat.succ_pos levels, fun _ _ => rfl, fun _ _ => rfl⟩

/-- Plain names are in order. -/
theorem within_object {levels : Nat} {entries : List (String × Value)} (keys : List String)
    (sublist : (AssocMap.keys entries).Sublist keys)
    (plain : keys.Nodup ∧ ∀ name ∈ keys, PlainName name)
    (each : ∀ entry ∈ entries, Within levels entry.2) : Within (levels + 1) (.object entries) := by
  have nodup := sublist.nodup plain.1
  have names : ∀ name ∈ AssocMap.keys entries, PlainName name :=
    fun name member => plain.2 name (sublist.subset member)
  refine ⟨?_, ?_, ?_⟩
  · rw [Nat.lt_succ_iff, depth_object_le_iff]
    exact fun entry member => (each entry member).1
  · rw [keysInOrder_object_iff]
    exact ⟨inOrder_of_plain names, fun entry member => (each entry member).2.1⟩
  · rw [Value.distinctKeys_object_iff]
    exact ⟨nodup, fun entry member => (each entry member).2.2⟩

theorem forall_within_optionalField_iff {β : Type} (levels : Nat) (key : String)
    (value : Option β) (f : β → Value) :
    (∀ entry ∈ Session.optionalField key (value.map f), Within levels entry.2) ↔
      ∀ b ∈ value, Within levels (f b) := by
  cases value <;> simp [Session.optionalField]

theorem within_fragment (fragment : PacketFragment) :
    Within (levels + 2) fragment.toValue := by
  apply within_object ["fragment_id", "index", "count", "total_payload_bytes", "payload_digest"]
    (List.Sublist.refl _) (by decide +kernel)
  simp [within_string, within_number64]

theorem within_signature (envelope : SignatureEnvelope) :
    Within (levels + 2) (.object envelope.fields) := by
  apply within_object _ envelope.keys_fields_sublist (by decide +kernel)
  simp only [SignatureEnvelope.fields, forall_mem_append, forall_mem_cons,
    forall_within_optionalField_iff, within_string]
  simp

/-- The fields of a packet are sorted alike, whatever it holds. -/
theorem within_packet (p : Packet) : Within 3 p.toValue := by
  apply within_object _ p.keys_fields_sublist (by decide +kernel)
  simp only [Packet.fields, forall_mem_append, forall_mem_cons,
    forall_within_optionalField_iff, within_string, within_bool, within_number64, within_strings,
    within_fragment, within_signature]
  simp

/-! ## The same bytes -/

/-- Where Rust writes a bundle, TypeScript writes the same one exactly if the body is
portable, and it writes a portable body only where Rust does.  Packets are always written
alike. -/
theorem containers_agree_iff {v w : Value} (safe : ∀ n ∈ v.numbers, n.isSafe = true)
    (distinct : v.distinctKeys = true) (same : v.SameData w) (signature : Option Bytes)
    {p : Packet} {q : Value} (safePacket : ∀ n ∈ p.toValue.numbers, n.isSafe = true)
    (samePacket : p.toValue.SameData q) :
    (∀ out, BinaryFormat.writeTfbundle v signature = .ok out →
      (writeTfbundle (ofJson w) signature = .ok out ↔ Portable v)) ∧
    (Portable v → ∀ out, writeTfbundle (ofJson w) signature = .ok out →
      BinaryFormat.writeTfbundle v signature = .ok out) ∧
    ∀ out, BinaryFormat.writeTfpkt p = .ok out ↔ writeTfpkt (ofJson q) = .ok out := by
  refine ⟨?_, ?_, ?_⟩
  · intro out written
    rcases (BinaryFormat.writeTfbundle_eq_ok_iff v signature out).mp written with
      ⟨bytes, encoded, short, shortSig, whole⟩
    rw [← canonicalCborEncode_eq_iff_portable safe distinct same short encoded,
      writeTfbundle_eq_ok_iff]
    constructor
    · rintro ⟨bytes', encoded', _, _, whole'⟩
      rw [← tfbundle_injective _ (whole'.trans whole.symm)]
      exact encoded'
    · exact fun encoded' => ⟨bytes, encoded', short, shortSig, whole⟩
  · intro portable out written
    rcases (writeTfbundle_eq_ok_iff _ signature out).mp written with
      ⟨bytes, encoded, short, shortSig, whole⟩
    exact (BinaryFormat.writeTfbundle_eq_ok_iff v signature out).mpr
      ⟨bytes, (cborEncode_iff_of_portable safe distinct same short portable).mpr encoded, short,
        shortSig, whole⟩
  · intro out
    rcases within_packet p with ⟨levels, inOrder, distinctPacket⟩
    have portable : Portable p.toValue := ⟨levels.le.trans (by decide), inOrder⟩
    rw [BinaryFormat.writeTfpkt_eq_ok_iff, writeTfpkt_eq_ok_iff]
    constructor
    · rintro ⟨bytes, encoded, short, whole⟩
      exact ⟨bytes, (cborEncode_iff_of_portable safePacket distinctPacket samePacket short
        portable).mp encoded, short, whole⟩
    · rintro ⟨bytes, encoded, short, whole⟩
      exact ⟨bytes, (cborEncode_iff_of_portable safePacket distinctPacket samePacket short
        portable).mpr encoded, short, whole⟩

/-- A packet with few fields. -/
def smallPacket : Packet where
  packetId := "p"
  source := "tf:actor:a"
  destination := "tf:actor:b"
  priority := .p2
  emergency := none
  createdAt := "2026-01-01T00:00:00Z"
  expiresAt := none
  ttlHops := some 3
  routeConstraints := none
  encoding := none
  compression := none
  payload := ""
  sessionRef := none
  fragment := none
  signature := ⟨"ed25519", "tf:actor:a", "", none, none, none⟩

theorem bundle_agrees_nested :
    let v := Value.object [("b", .number (.negInt 4)), ("a", .array [.number (.posInt 500), .null])]
    let w := Value.object [("a", .array [.number (.posInt 500), .null]), ("b", .number (.negInt 4))]
    ∃ out, BinaryFormat.writeTfbundle v (some [7]) = .ok out ∧
      writeTfbundle (ofJson w) (some [7]) = .ok out := by
  intro v w
  have written : BinaryFormat.writeTfbundle v (some [7]) =
      .ok (tfbundle [0xa2, 0x61, 0x61, 0x82, 0x19, 0x01, 0xf4, 0xf6, 0x61, 0x62, 0x24] [7]) := by
    decide +kernel
  have same : v.SameData w :=
    ⟨rfl, ⟨_, .tail _ (.head _), rfl⟩, ⟨_, .head _, rfl, trivial, trivial⟩, trivial⟩
  have agrees := containers_agree_iff (v := v) (w := w) (by decide +kernel) (by decide +kernel) same
    (some [7]) (p := smallPacket) (q := smallPacket.toValue) (by decide +kernel)
    (Value.sameData_of_sorted_eq _ _ rfl)
  exact ⟨_, written, (agrees.1 _ written).mpr (by decide +kernel)⟩

/-- A list in lists. -/
def nested : Nat → Value
  | 0 => .null
  | n + 1 => .array [nested n]

theorem bundles_differ :
    let indices := Value.object [("10", .null), ("9", .null)]
    let proto := Value.object [("__proto__", .null)]
    let planes := Value.object [("\uE000", .null), ("😀", .null)]
    (BinaryFormat.writeTfbundle indices none =
        .ok (tfbundle [0xa2, 0x62, 0x31, 0x30, 0xf6, 0x61, 0x39, 0xf6] []) ∧
      writeTfbundle (ofJson indices) none =
        .ok (tfbundle [0xa2, 0x61, 0x39, 0xf6, 0x62, 0x31, 0x30, 0xf6] [])) ∧
    (BinaryFormat.writeTfbundle proto none =
        .ok (tfbundle [0xa1, 0x69, 0x5f, 0x5f, 0x70, 0x72, 0x6f, 0x74, 0x6f, 0x5f, 0x5f, 0xf6] []) ∧
      writeTfbundle (ofJson proto) none = .ok (tfbundle [0xa0] [])) ∧
    (BinaryFormat.writeTfbundle planes none =
        .ok (tfbundle [0xa2, 0x63, 0xee, 0x80, 0x80, 0xf6, 0x64, 0xf0, 0x9f, 0x98, 0x80, 0xf6] []) ∧
      writeTfbundle (ofJson planes) none =
        .ok (tfbundle [0xa2, 0x64, 0xf0, 0x9f, 0x98, 0x80, 0xf6, 0x63, 0xee, 0x80, 0x80, 0xf6] [])) ∧
    BinaryFormat.writeTfbundle (nested 129) none =
        .ok (tfbundle (List.replicate 129 0x81 ++ [0xf6]) []) ∧
      writeTfbundle (ofJson (nested 129)) none =
        .error (.cbor (.cborError "nesting exceeds depth limit")) := by
  decide +kernel

end Script

end TrustForge.BinaryFormat
