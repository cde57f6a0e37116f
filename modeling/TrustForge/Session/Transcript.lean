import TrustForge.Json.NormalForm
import TrustForge.Session.Handshake

/-!
# Transcripts

A transcript is the canonical JSON of two or three messages, one after another with
nothing between them.  Reading it back shows that the text determines the messages up
to NFC normalisation of their strings.
-/

namespace TrustForge.Session

open Option hiding map_map
open AssocMap HelloI HelloR Json Json.Runtime List


/-! ## Normalised messages -/

variable (nfc : String → String)

/-- The message with every string normalised. -/
def HelloI.normalize (msg : HelloI) : HelloI :=
  { version := msg.version
    suite := nfc msg.suite
    supportedSuites := msg.supportedSuites.map fun suites => suites.map nfc
    sessionId := nfc msg.sessionId
    peerHint := nfc msg.peerHint
    selfHint := msg.selfHint.map nfc
    ephPub := nfc msg.ephPub }

def HelloR.normalize (msg : HelloR) : HelloR :=
  { ephPub := nfc msg.ephPub
    identPub := nfc msg.identPub
    selectedSuite := msg.selectedSuite.map nfc
    selfHint := msg.selfHint.map nfc
    signatureMldsa := msg.signatureMldsa.map nfc
    identPubMldsa := msg.identPubMldsa.map nfc
    signature := nfc msg.signature }

def Auth.normalize (msg : Auth) : Auth :=
  { identPub := nfc msg.identPub
    signatureMldsa := msg.signatureMldsa.map nfc
    identPubMldsa := msg.identPubMldsa.map nfc
    signature := nfc msg.signature }

/-! ## Fields -/

theorem keys_optionalField_sublist (key : String) (value : Option Value) :
    (keys (optionalField key value)).Sublist [key] := by
  cases value with
  | none => exact nil_sublist _
  | some v => exact Sublist.refl _

theorem HelloI.plainKeys_fields (msg : HelloI) :
    Json.Runtime.PlainKeys (keys msg.fields) := by
  have full : Json.Runtime.PlainKeys (["kind", "version", "suite"] ++ ["supported_suites"] ++
    ["session_id", "peer_hint"] ++ ["self_hint"] ++ ["eph_pub"]) := by decide
  apply full.sublist
  simp only [fields, AssocMap.keys, map_append]
  repeat' apply Sublist.append
  all_goals first | exact Sublist.refl _ | exact keys_optionalField_sublist _ _

theorem HelloR.plainKeys_fields (msg : HelloR) :
    Json.Runtime.PlainKeys (keys msg.fields) := by
  have full : Json.Runtime.PlainKeys (["kind", "eph_pub", "ident_pub"] ++ ["selected_suite"] ++
    ["self_hint"] ++ ["signature_mldsa"] ++ ["ident_pub_mldsa"] ++ ["signature"]) := by decide
  apply full.sublist
  simp only [fields, AssocMap.keys, map_append]
  repeat' apply Sublist.append
  all_goals first | exact Sublist.refl _ | exact keys_optionalField_sublist _ _

theorem Auth.plainKeys_fields (msg : Auth) :
    Json.Runtime.PlainKeys (keys msg.fields) := by
  have full : Json.Runtime.PlainKeys (["kind", "ident_pub"] ++ ["signature_mldsa"] ++
    ["ident_pub_mldsa"] ++ ["signature"]) := by decide
  apply full.sublist
  simp only [Auth.fields, AssocMap.keys, map_append]
  repeat' apply Sublist.append
  all_goals first | exact Sublist.refl _ | exact keys_optionalField_sublist _ _

/-! ## Reading messages back -/

section

variable (runtime : Json.Runtime) (budget : Nat)

theorem rereadAll_strings (suites : List String) :
    runtime.rereadAll budget (suites.map .string) =
      some (suites.map fun s => .string (runtime.nfc s)) := by
  induction suites with
  | nil => rfl
  | cons s rest ih => simp [rereadAll, reread, ih]

theorem reread_number32 (n : UInt32) :
    runtime.reread budget (number32 n) = some (number32 n) := by
  have read := readNumber_posInt runtime.readF64
    ⟨n.toNat, lt_trans n.toNat_lt (by decide)⟩
  rw [number32, reread, numeral, read, map_some]

/-- The fields of a message after they were read back. -/
def rereadField (fields : List (String × Value)) (key : String) : Option Value :=
  (get? key fields).bind (runtime.reread (recursionLimit - 1))

/-- Values that are read back alike agree field by field. -/
theorem rereadField_eq {left right : List (String × Value)} {w : Value}
    (leftPlain : Json.Runtime.PlainKeys (keys left))
    (rightPlain : Json.Runtime.PlainKeys (keys right))
    (readLeft : runtime.reread recursionLimit (.object left) = some w)
    (readRight : runtime.reread recursionLimit (.object right) = some w) (key : String) :
    rereadField runtime left key = rereadField runtime right key := by
  rw [rereadField, rereadField, ← runtime.get?_of_reread_object leftPlain readLeft key,
    ← runtime.get?_of_reread_object rightPlain readRight key]

theorem bind_reread_text (text : Option String) :
    (text.map Value.string).bind (runtime.reread budget) =
      (text.map runtime.nfc).map Value.string := by
  cases text <;> rfl

theorem bind_reread_texts (texts : Option (List String)) :
    (texts.map fun suites => Value.array (suites.map .string)).bind
        (runtime.reread (recursionLimit - 1)) =
      (texts.map fun suites => suites.map runtime.nfc).map fun suites =>
        Value.array (suites.map .string) := by
  cases texts with
  | none => rfl
  | some suites => simp [reread, recursionLimit, rereadAll_strings]

theorem string_injective : Function.Injective Value.string :=
  fun _ _ same => Value.string.inj same

theorem strings_injective :
    Function.Injective fun suites : List String => Value.array (suites.map .string) :=
  fun _ _ same => map_injective_iff.mpr string_injective (Value.array.inj same)

theorem number32_injective {n m : UInt32} (same : number32 n = number32 m) : n = m := by
  simp only [number32, Value.number.injEq, Json.Number.posInt.injEq, Fin.mk.injEq] at same
  exact UInt32.toNat_inj.mp same

theorem HelloI.normalize_eq {left right : HelloI}
    (same : ∀ key, rereadField runtime left.fields key = rereadField runtime right.fields key) :
    left.normalize runtime.nfc = right.normalize runtime.nfc := by
  have version := same "version"
  have suite := same "suite"
  have suites := same "supported_suites"
  have sessionId := same "session_id"
  have peerHint := same "peer_hint"
  have selfHint := same "self_hint"
  have ephPub := same "eph_pub"
  simp [rereadField, fields, get?, reread, reread_number32,
    bind_reread_text, bind_reread_texts, -Option.map_map]
    at version suite suites sessionId peerHint selfHint ephPub
  simp only [normalize, mk.injEq]
  exact ⟨number32_injective version, suite, map_injective strings_injective suites,
    sessionId, peerHint, map_injective string_injective selfHint, ephPub⟩

theorem HelloR.normalize_eq {left right : HelloR}
    (same : ∀ key, rereadField runtime left.fields key = rereadField runtime right.fields key) :
    left.normalize runtime.nfc = right.normalize runtime.nfc := by
  have ephPub := same "eph_pub"
  have identPub := same "ident_pub"
  have selectedSuite := same "selected_suite"
  have selfHint := same "self_hint"
  have signatureMldsa := same "signature_mldsa"
  have identPubMldsa := same "ident_pub_mldsa"
  have signature := same "signature"
  simp [rereadField, fields, get?, reread, bind_reread_text, -Option.map_map]
    at ephPub identPub selectedSuite selfHint signatureMldsa identPubMldsa signature
  have text := map_injective string_injective
  simp only [normalize, mk.injEq]
  exact ⟨ephPub, identPub, text selectedSuite, text selfHint, text signatureMldsa,
    text identPubMldsa, signature⟩

theorem Auth.normalize_eq {left right : Auth}
    (same : ∀ key, rereadField runtime left.fields key = rereadField runtime right.fields key) :
    left.normalize runtime.nfc = right.normalize runtime.nfc := by
  have identPub := same "ident_pub"
  have signatureMldsa := same "signature_mldsa"
  have identPubMldsa := same "ident_pub_mldsa"
  have signature := same "signature"
  simp [rereadField, Auth.fields, get?, reread, bind_reread_text, -Option.map_map]
    at identPub signatureMldsa identPubMldsa signature
  have text := map_injective string_injective
  simp only [Auth.normalize, Auth.mk.injEq]
  exact ⟨identPub, text signatureMldsa, text identPubMldsa, signature⟩

/-! ## Every message can be read back -/

theorem forall_optionalField_iff {β : Type} (budget : Nat) (key : String) (value : Option β)
    (f : β → Value) :
    (∀ entry ∈ optionalField key (value.map f), (runtime.reread budget entry.2).isSome = true) ↔
      ∀ b ∈ value, (runtime.reread budget (f b)).isSome = true := by
  cases value <;> simp [optionalField]

theorem isSome_reread_string (s : String) : (runtime.reread budget (.string s)).isSome = true := by
  simp [reread]

theorem isSome_reread_strings (texts : List String) :
    (runtime.reread (recursionLimit - 1) (.array (texts.map .string))).isSome = true := by
  simp [reread, recursionLimit, rereadAll_strings]

theorem HelloI.isSome_reread (msg : HelloI) :
    (runtime.reread recursionLimit msg.toValue).isSome = true := by
  rw [toValue, runtime.reread_object_isSome_iff _ (by decide)]
  simp only [fields, forall_mem_append, forall_mem_cons,
    forall_optionalField_iff, isSome_reread_string, isSome_reread_strings, reread_number32]
  simp

theorem HelloR.isSome_reread (msg : HelloR) :
    (runtime.reread recursionLimit msg.toValue).isSome = true := by
  rw [toValue, runtime.reread_object_isSome_iff _ (by decide)]
  simp only [fields, forall_mem_append, forall_mem_cons,
    forall_optionalField_iff, isSome_reread_string]
  simp

theorem Auth.isSome_reread (msg : Auth) :
    (runtime.reread recursionLimit msg.toValue).isSome = true := by
  rw [Auth.toValue, runtime.reread_object_isSome_iff _ (by decide)]
  simp only [Auth.fields, forall_mem_append, forall_mem_cons,
    forall_optionalField_iff, isSome_reread_string]
  simp

/-! ## Unique parsing -/

/-- Texts that start with an object, followed by what starts another object or is over,
agree on the fields of that object and on what follows. -/
theorem rereadField_eq_of_append {left right : List (String × Value)} {after after' : List Char}
    (leftPlain : Json.Runtime.PlainKeys (keys left))
    (rightPlain : Json.Runtime.PlainKeys (keys right))
    (readable : (runtime.reread recursionLimit (.object left)).isSome = true)
    (leftEnds : Json.EndsNumber after) (rightEnds : Json.EndsNumber after')
    (equal : runtime.encode (.object left) ++ after = runtime.encode (.object right) ++ after') :
    (∀ key, rereadField runtime left key = rereadField runtime right key) ∧ after = after' := by
  rcases isSome_iff_exists.mp readable with ⟨w, readLeft⟩
  rcases runtime.encode_append_inj equal leftEnds rightEnds readLeft with ⟨readRight, sameRest⟩
  exact ⟨rereadField_eq runtime leftPlain rightPlain readLeft readRight, sameRest⟩

/-- An object does not continue a number. -/
theorem endsNumber_encode_object (fields : List (String × Value)) (rest : List Char) :
    Json.EndsNumber (runtime.encode (.object fields) ++ rest) := by
  rw [encode_object, cons_append]
  exact endsNumber_of_head _ (by decide)

end

namespace Platform

variable (platform : Platform)

/-- Equal transcripts of three messages come from messages that are equal after
normalisation. -/
theorem normalize_eq_of_canonicalConcat {leftI rightI : HelloI} {leftR rightR : HelloR}
    {leftA rightA : Auth}
    (same : platform.canonicalConcat [leftI.toValue, leftR.toValue, leftA.toValue] =
      platform.canonicalConcat [rightI.toValue, rightR.toValue, rightA.toValue]) :
    leftI.normalize platform.nfc = rightI.normalize platform.nfc ∧
      leftR.normalize platform.nfc = rightR.normalize platform.nfc ∧
      leftA.normalize platform.nfc = rightA.normalize platform.nfc := by
  have texts := String.ofList_injective same
  simp only [flatMap_cons] at texts
  -- The messages are read off the front one after another.
  rcases rereadField_eq_of_append platform.toRuntime leftI.plainKeys_fields
    rightI.plainKeys_fields (leftI.isSome_reread _) (endsNumber_encode_object _ _ _)
    (endsNumber_encode_object _ _ _) texts with ⟨sameI, texts⟩
  rcases rereadField_eq_of_append platform.toRuntime leftR.plainKeys_fields
    rightR.plainKeys_fields (leftR.isSome_reread _) (endsNumber_encode_object _ _ _)
    (endsNumber_encode_object _ _ _) texts with ⟨sameR, texts⟩
  rcases rereadField_eq_of_append platform.toRuntime leftA.plainKeys_fields
    rightA.plainKeys_fields (leftA.isSome_reread _) endsNumber_nil
    endsNumber_nil texts with ⟨sameA, _⟩
  exact ⟨normalize_eq _ sameI, normalize_eq _ sameR, Auth.normalize_eq _ sameA⟩

/-! ## Transcripts in general -/

/-- Canonical text decides float-free data, and transcripts of objects come apart into the
canonical texts they were put together from. -/
theorem canonicalize_injective_and_selfDelimiting :
    (∀ u v : Value, u.floatFree = true → v.floatFree = true →
      (u.mapText platform.nfc).distinctKeys = true →
      (v.mapText platform.nfc).distinctKeys = true →
      (platform.canonicalize u = platform.canonicalize v ↔
        (u.mapText platform.nfc).SameData (v.mapText platform.nfc))) ∧
    ∀ us vs : List Value, (∀ u ∈ us, ∃ entries, u = .object entries) →
      (∀ v ∈ vs, ∃ entries, v = .object entries) →
      platform.canonicalConcat us = platform.canonicalConcat vs →
      us.length = vs.length ∧ us.map platform.canonicalize = vs.map platform.canonicalize := by
  constructor
  · intro u v uFree vFree uDistinct vDistinct
    exact platform.canonicalize_eq_iff uFree vFree uDistinct vDistinct
  · intro us vs uObjects vObjects same
    have texts := platform.map_encode_eq_of_flatMap_eq uObjects vObjects
      (String.ofList_injective same)
    have lengths := congrArg List.length texts
    rw [length_map, length_map] at lengths
    have canonical := congrArg (List.map String.ofList) texts
    rw [map_map, map_map] at canonical
    exact ⟨lengths, canonical⟩

theorem canonicalize_reordered :
    transparent.canonicalize (.object [("b", .null), ("a", .bool true)]) =
      transparent.canonicalize (.object [("a", .bool true), ("b", .null)]) := by
  apply (transparent.canonicalize_injective_and_selfDelimiting.1 _ _ rfl rfl (by decide +kernel)
    (by decide +kernel)).mpr
  exact ⟨rfl, ⟨.null, by simp [Value.mapTextObject, Value.mapText], trivial⟩,
    ⟨.bool true, by simp [Value.mapTextObject, Value.mapText], rfl⟩, trivial⟩

end Platform

end TrustForge.Session
