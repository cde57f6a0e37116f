import TrustForge.Json.NormalForm
import TrustForge.PacketMode.Script

/-!
# Binary containers

Model of the writers of `binary_format.rs`.  A body is turned into JSON, the keys of its
objects are sorted, and the CBOR of the result is put between a magic number and lengths
of four bytes.  The packet is the one that is generated from its schema, with 64 bit
numbers.
-/

namespace TrustForge.BinaryFormat

open BigEndian List Except Result Nested
open Json (Value sortByKey)
open PacketMode.Script (Priority PacketEncoding Compression)
open Session (optionalField)
open Signing (strings)

inductive BinaryFormatError where
  | badMagic
  | truncated (offset : Nat)
  | cbor (text : String)
  | lengthOutOfRange (n : Nat)
  deriving DecidableEq

def tfbundleMagic : Bytes :=
  [0x54, 0x46, 0x42, 0x4e, 0x44, 0x01, 0x00, 0x00]

def tfpktMagic : Bytes :=
  [0x54, 0x46, 0x50, 0x4b, 0x54, 0x01, 0x00, 0x00]

/-- `put_u32_be`, as the bytes it appends. -/
def putU32Be (n : Nat) : Except BinaryFormatError Bytes :=
  if 0xffffffff < n then .error (.lengthOutOfRange n) else .ok (encode 4 n)

/-! ## Bodies -/

mutual

def canonicalizeJson : Value → Value
  | .object entries => .object (AssocMap.ofPairs (sortByKey (canonicalizeEntries entries)))
  | .array xs => .array (canonicalizeItems xs)
  | .null => .null
  | .bool b => .bool b
  | .number n => .number n
  | .string s => .string s

def canonicalizeItems : List Value → List Value
  | [] => []
  | x :: xs => canonicalizeJson x :: canonicalizeItems xs

def canonicalizeEntries : List (String × Value) → List (String × Value)
  | [] => []
  | (k, val) :: rest => (k, canonicalizeJson val) :: canonicalizeEntries rest

end

/-- The number branch of `from_json`. -/
def numberOfJson : Json.Number → Cbor.Value
  | .posInt value => .integer value.val
  | .negInt value => .integer (-(value.val + 1))
  | .float f => .float f.bits

mutual

/-- `cbor::from_json`.  It does not fail, because a number that is not an integer is a
float. -/
def fromJson : Value → Cbor.Value
  | .null => .null
  | .bool b => .bool b
  | .number n => numberOfJson n
  | .string s => .text s
  | .array items => .array (itemsFromJson items)
  | .object map => .map (entriesFromJson map)

def itemsFromJson : List Value → List Cbor.Value
  | [] => []
  | x :: xs => fromJson x :: itemsFromJson xs

def entriesFromJson : List (String × Value) → List (Cbor.Value × Cbor.Value)
  | [] => []
  | (k, val) :: rest => (.text k, fromJson val) :: entriesFromJson rest

end

/-- `cbor_encode`, from the JSON of a body. -/
def cborEncode (v : Value) : Except BinaryFormatError Bytes :=
  (Cbor.encode (fromJson (canonicalizeJson v))).mapError fun e => .cbor e.text

/-! ## Containers -/

/-- `write_tfbundle`, from the JSON of the body. -/
def writeTfbundle (body : Value) (signature : Option Bytes) : Except BinaryFormatError Bytes := do
  let bodyBytes ← cborEncode body
  let bodyLen ← putU32Be bodyBytes.length
  let sig := signature.getD []
  let sigLen ← putU32Be sig.length
  .ok (tfbundleMagic ++ bodyLen ++ bodyBytes ++ sigLen ++ sig)

/-! ## Packets -/

/-- A signed number of 64 bits in JSON. -/
def number64 (i : Int64) : Value :=
  if nonneg : 0 ≤ i.toInt then
    .number (.posInt ⟨i.toInt.toNat, by have := i.toInt_lt; omega⟩)
  else .number (.negInt ⟨(-i.toInt - 1).toNat, by have := i.le_toInt; omega⟩)

structure PacketFragment where
  fragmentId : String
  index : Int64
  count : Int64
  totalPayloadBytes : Int64
  payloadDigest : String

def PacketFragment.toValue (fragment : PacketFragment) : Value :=
  .object [("fragment_id", .string fragment.fragmentId), ("index", number64 fragment.index),
    ("count", number64 fragment.count),
    ("total_payload_bytes", number64 fragment.totalPayloadBytes),
    ("payload_digest", .string fragment.payloadDigest)]

/-- `SignatureEnvelope`, as it is generated. -/
structure SignatureEnvelope where
  algorithm : String
  signer : String
  signature : String
  hashAlg : Option String
  altAlgorithm : Option String
  altSignature : Option String

def SignatureEnvelope.fields (envelope : SignatureEnvelope) : List (String × Value) :=
  [("algorithm", .string envelope.algorithm), ("signer", .string envelope.signer),
    ("signature", .string envelope.signature)] ++
  optionalField "hash_alg" (envelope.hashAlg.map .string) ++
  optionalField "alt_algorithm" (envelope.altAlgorithm.map .string) ++
  optionalField "alt_signature" (envelope.altSignature.map .string)

/-- `Packet`, as it is generated.  There is one `packet_version`. -/
structure Packet where
  packetId : String
  source : String
  destination : String
  priority : Priority
  emergency : Option Bool
  createdAt : String
  expiresAt : Option String
  ttlHops : Option Int64
  routeConstraints : Option (List String)
  encoding : Option PacketEncoding
  compression : Option Compression
  payload : String
  sessionRef : Option String
  fragment : Option PacketFragment
  signature : SignatureEnvelope

def Packet.fields (p : Packet) : List (String × Value) :=
  [("packet_version", .string "1"), ("packet_id", .string p.packetId),
    ("source", .string p.source), ("destination", .string p.destination),
    ("priority", .string p.priority.text)] ++
  optionalField "emergency" (p.emergency.map .bool) ++
  [("created_at", .string p.createdAt)] ++
  optionalField "expires_at" (p.expiresAt.map .string) ++
  optionalField "ttl_hops" (p.ttlHops.map number64) ++
  optionalField "route_constraints" (p.routeConstraints.map strings) ++
  optionalField "encoding" (p.encoding.map fun e => .string e.text) ++
  optionalField "compression" (p.compression.map fun c => .string c.text) ++
  [("payload", .string p.payload)] ++
  optionalField "session_ref" (p.sessionRef.map .string) ++
  optionalField "fragment" (p.fragment.map PacketFragment.toValue) ++
  [("signature", .object p.signature.fields)]

/-- `serde_json::to_value` of a packet. -/
def Packet.toValue (p : Packet) : Value :=
  .object p.fields

def writeTfpkt (packet : Packet) : Except BinaryFormatError Bytes := do
  let bodyBytes ← cborEncode packet.toValue
  let bodyLen ← putU32Be bodyBytes.length
  .ok (tfpktMagic ++ bodyLen ++ bodyBytes)

/-! ## Bodies are sorted -/

theorem canonicalizeItems_eq_map (xs : List Value) :
    canonicalizeItems xs = xs.map canonicalizeJson :=
  eq_map rfl (fun _ _ => rfl)

variable (entries : List (String × Value))

theorem canonicalizeEntries_eq_map :
    canonicalizeEntries entries =
      entries.map fun entry => (entry.1, canonicalizeJson entry.2) :=
  eq_map rfl (fun _ _ => rfl)

theorem itemsFromJson_eq_map (xs : List Value) : itemsFromJson xs = xs.map fromJson :=
  eq_map rfl (fun _ _ => rfl)

theorem entriesFromJson_eq_map :
    entriesFromJson entries =
      entries.map fun entry => (Cbor.Value.text entry.1, fromJson entry.2) :=
  eq_map rfl (fun _ _ => rfl)

/-- Where no key is repeated, nothing is lost by inserting the sorted entries. -/
theorem canonicalizeJson_eq_sorted (v : Value) (distinct : v.distinctKeys = true) :
    canonicalizeJson v = v.sorted := by
  induction v using Value.memberInduction with
  | null | bool | number | string => rfl
  | array xs ih =>
    rw [Value.distinctKeys, Value.distinctKeysArray_iff] at distinct
    rw [canonicalizeJson, Value.sorted, canonicalizeItems_eq_map, Value.sortedAll_eq_map,
      map_congr_left fun x member => ih x member (distinct x member)]
  | object entries ih =>
    rcases (Value.distinctKeys_object_iff entries).mp distinct with ⟨nodup, each⟩
    have same : canonicalizeEntries entries = Value.sortedEach entries := by
      rw [canonicalizeEntries_eq_map, Value.sortedEach_eq_map]
      apply map_congr_left
      intro entry member
      rw [ih entry member (each entry member)]
    rw [canonicalizeJson, Value.sorted, same, AssocMap.ofPairs_of_nodup]
    rw [AssocMap.keys, ((Json.sortByKey_perm _).map Prod.fst).nodup_iff, Value.sortedEach_eq_map,
      map_map]
    exact nodup

theorem cborEncode_eq_ok_iff {v : Value} (distinct : v.distinctKeys = true) (bytes : Bytes) :
    cborEncode v = .ok bytes ↔ Cbor.encode (fromJson v.sorted) = .ok bytes := by
  rw [cborEncode, mapError_eq_ok_iff, canonicalizeJson_eq_sorted v distinct]

/-! ## Nothing is lost in CBOR -/

theorem numberOfJson_injective {n m : Json.Number} (same : numberOfJson n = numberOfJson m) :
    n = m := by
  cases n <;> cases m <;> simp only [numberOfJson, Cbor.Value.integer.injEq, Cbor.Value.float.injEq,
    reduceCtorEq] at same
  · exact congrArg _ (Fin.ext (by omega))
  · omega
  · omega
  · exact congrArg _ (Fin.ext (by omega))
  · exact congrArg _ (by rwa [Json.F64.mk.injEq])

theorem eq_of_map_eq {α β : Type} {f : α → β} {xs ys : List α}
    (injective : ∀ x ∈ xs, ∀ y ∈ ys, f x = f y → x = y) (same : xs.map f = ys.map f) :
    xs = ys := by
  induction xs generalizing ys with
  | nil => exact (map_eq_nil_iff.mp same.symm).symm
  | cons x xs ih =>
    cases ys with
    | nil => contradiction
    | cons y ys =>
      rcases List.cons.inj same with ⟨first, rest⟩
      rw [injective x mem_cons_self y mem_cons_self first,
        ih (fun z zMem w wMem =>
          injective z (mem_cons_of_mem x zMem) w (mem_cons_of_mem y wMem)) rest]

theorem fromJson_injective (v : Value) : ∀ w, fromJson v = fromJson w → v = w := by
  induction v using Value.memberInduction with
  | null | bool =>
    intro w same
    rcases w with _ | _ | (_ | _ | _) | _ | _ | _ <;> simp_all [fromJson, numberOfJson]
  | number n =>
    intro w same
    cases w with
    | number m =>
      rw [fromJson, fromJson] at same
      rw [numberOfJson_injective same]
    | _ => cases n <;> simp [fromJson, numberOfJson] at same
  | string _ =>
    intro w same
    rcases w with _ | _ | (_ | _ | _) | _ | _ | _ <;> simp_all [fromJson, numberOfJson]
  | array xs ih =>
    intro w same
    cases w with
    | array ys =>
      rw [fromJson, fromJson, Cbor.Value.array.injEq, itemsFromJson_eq_map,
        itemsFromJson_eq_map] at same
      rw [eq_of_map_eq (fun x member y _ => ih x member y) same]
    | number m => cases m <;> simp [fromJson, numberOfJson] at same
    | _ => simp [fromJson] at same
  | object entries ih =>
    intro w same
    cases w with
    | object others =>
      rw [fromJson, fromJson, Cbor.Value.map.injEq, entriesFromJson_eq_map,
        entriesFromJson_eq_map] at same
      have injective : ∀ entry ∈ entries, ∀ other ∈ others,
          (Cbor.Value.text entry.1, fromJson entry.2) =
            (Cbor.Value.text other.1, fromJson other.2) → entry = other := by
        intro entry member other _ equal
        rw [Prod.mk.injEq, Cbor.Value.text.injEq] at equal
        exact Prod.ext equal.1 (ih entry member other.2 equal.2)
      rw [eq_of_map_eq injective same]
    | number m => cases m <;> simp [fromJson, numberOfJson] at same
    | _ => simp [fromJson] at same

/-! ## Depth -/

theorem depth_array_le_iff (xs : List Value) (n : Nat) :
    (fromJson (.array xs)).depth ≤ n ↔ ∀ x ∈ xs, (fromJson x).depth < n := by
  rw [fromJson, Cbor.Value.depth, Cbor.Value.depthOfItems_le_iff, itemsFromJson_eq_map,
    forall_mem_map]

theorem depth_object_le_iff (n : Nat) :
    (fromJson (.object entries)).depth ≤ n ↔ ∀ entry ∈ entries, (fromJson entry.2).depth < n := by
  rw [fromJson, Cbor.Value.depth, Cbor.Value.depthOfEntries_le_iff, entriesFromJson_eq_map,
    forall_mem_map]
  apply forall₂_congr
  intro entry _
  rw [Cbor.Value.depth]
  exact ⟨And.right, fun below => ⟨Nat.zero_lt_of_lt below, below⟩⟩

/-- Sorting does not change how deep a value is. -/
theorem depth_sorted (v : Value) : (fromJson v.sorted).depth = (fromJson v).depth := by
  induction v using Value.memberInduction with
  | null | bool | number | string => rfl
  | array xs ih =>
    apply eq_of_forall_ge_iff
    intro n
    rw [Value.sorted, depth_array_le_iff, depth_array_le_iff, Value.sortedAll_eq_map,
      forall_mem_map]
    exact forall₂_congr fun x member => by rw [ih x member]
  | object entries ih =>
    apply eq_of_forall_ge_iff
    intro n
    rw [Value.sorted, depth_object_le_iff, depth_object_le_iff, Value.sortedEach_eq_map]
    simp only [(Json.sortByKey_perm _).mem_iff, forall_mem_map]
    exact forall₂_congr fun entry member => by rw [ih entry member]

/-! ## Layout -/

theorem putU32Be_eq_ok_iff (n : Nat) (len : Bytes) :
    putU32Be n = .ok len ↔ n ≤ 0xffffffff ∧ encode 4 n = len := by
  unfold putU32Be
  by_cases large : 0xffffffff < n
  · rw [if_pos large]
    exact iff_of_false nofun fun both => absurd both.1 (not_le_of_gt large)
  · rw [if_neg large, ok.injEq]
    exact (and_iff_right (le_of_not_gt large)).symm

/-- The bytes of a `.tfbundle`. -/
def tfbundle (bodyBytes sig : Bytes) : Bytes :=
  tfbundleMagic ++ encode 4 bodyBytes.length ++ bodyBytes ++
    encode 4 sig.length ++ sig

/-- The bytes of a `.tfpkt`. -/
def tfpkt (bodyBytes : Bytes) : Bytes :=
  tfpktMagic ++ encode 4 bodyBytes.length ++ bodyBytes

theorem eq_of_framed_eq {magic bytes bytes' : Bytes}
    (same : magic ++ encode 4 bytes.length ++ bytes =
      magic ++ encode 4 bytes'.length ++ bytes') : bytes = bytes' :=
  (append_inj same (by simp)).2

theorem tfbundle_injective (sig : Bytes) : Function.Injective fun bytes => tfbundle bytes sig := by
  intro bytes bytes' same
  simp only [tfbundle, append_left_inj] at same
  exact eq_of_framed_eq same

section

variable {ε : Type} {put : Nat → Except ε Bytes}
  (spec : ∀ n len, put n = .ok len ↔ n ≤ 0xffffffff ∧ encode 4 n = len)

include spec

/-- What the writers of both languages do with an encoded body. -/
theorem bundled_eq_ok_iff (encoded : Except ε Bytes) (sig out : Bytes) :
    (do let bodyBytes ← encoded
        let bodyLen ← put bodyBytes.length
        let sigLen ← put sig.length
        .ok (tfbundleMagic ++ bodyLen ++ bodyBytes ++ sigLen ++ sig)) = .ok out ↔
      ∃ bytes, encoded = .ok bytes ∧ bytes.length ≤ 0xffffffff ∧ sig.length ≤ 0xffffffff ∧
        tfbundle bytes sig = out := by
  simp only [bind_eq_ok_iff, spec, ok.injEq]
  constructor
  · rintro ⟨bytes, written, _, ⟨short, rfl⟩, _, ⟨shortSig, rfl⟩, whole⟩
    exact ⟨bytes, written, short, shortSig, whole⟩
  · rintro ⟨bytes, written, short, shortSig, whole⟩
    exact ⟨bytes, written, _, ⟨short, rfl⟩, _, ⟨shortSig, rfl⟩, whole⟩

theorem packed_eq_ok_iff (encoded : Except ε Bytes) (out : Bytes) :
    (do let bodyBytes ← encoded
        let bodyLen ← put bodyBytes.length
        .ok (tfpktMagic ++ bodyLen ++ bodyBytes)) = .ok out ↔
      ∃ bytes, encoded = .ok bytes ∧ bytes.length ≤ 0xffffffff ∧ tfpkt bytes = out := by
  simp only [bind_eq_ok_iff, spec, ok.injEq]
  constructor
  · rintro ⟨bytes, written, _, ⟨short, rfl⟩, whole⟩
    exact ⟨bytes, written, short, whole⟩
  · rintro ⟨bytes, written, short, whole⟩
    exact ⟨bytes, written, _, ⟨short, rfl⟩, whole⟩

end

theorem writeTfbundle_eq_ok_iff (body : Value) (signature : Option Bytes) (out : Bytes) :
    writeTfbundle body signature = .ok out ↔
      ∃ bytes, cborEncode body = .ok bytes ∧ bytes.length ≤ 0xffffffff ∧
        (signature.getD []).length ≤ 0xffffffff ∧ tfbundle bytes (signature.getD []) = out :=
  bundled_eq_ok_iff putU32Be_eq_ok_iff (cborEncode body) (signature.getD []) out

theorem writeTfpkt_eq_ok_iff (packet : Packet) (out : Bytes) :
    writeTfpkt packet = .ok out ↔
      ∃ bytes, cborEncode packet.toValue = .ok bytes ∧ bytes.length ≤ 0xffffffff ∧
        tfpkt bytes = out :=
  packed_eq_ok_iff putU32Be_eq_ok_iff (cborEncode packet.toValue) out

end TrustForge.BinaryFormat
