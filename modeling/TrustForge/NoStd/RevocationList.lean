import TrustForge.Foundation.Bounded
import TrustForge.Foundation.Lines
import TrustForge.Issuers

/-!
# Revocation lists in binary form

Model of `orl.rs`: the parser and index of the compact form in which a gateway hands a
revocation list to a device.  The index is a map with an allocator and a map of a fixed
capacity without one.  Sums of positions and lengths stay below `2 ^ 64`, since a buffer is
shorter than `2 ^ 63` and a length prefix is below `2 ^ 32`.
-/

namespace TrustForge.NoStd

open BigEndian Result Text List Except
open Issuers (RevokedEntryKind)
open Session (Key)

/-- `RevokedKind`, which mirrors `RevokedEntry_Kind`; `as_str` gives the same names. -/
abbrev RevokedKind := RevokedEntryKind

def fromU8 (b : UInt8) : Option RevokedKind :=
  match b.toNat with
  | 1 => some .actor
  | 2 => some .actorInstance
  | 3 => some .capability
  | 4 => some .delegation
  | 5 => some .key
  | _ => none

def toU8 : RevokedKind → UInt8
  | .actor => 1
  | .actorInstance => 2
  | .capability => 3
  | .delegation => 4
  | .key => 5

inductive OrlError where
  | unsupportedVersion
  | truncated
  | expired
  | futureDated
  | badLength
  | badKind
  | badSignature
  | badPublicKey
  | capacityExceeded
  | keyTooLarge

/-! ## The byte cursor -/

abbrev OrlM (α : Type) := Program OrlError (Cursor UInt8) α

def readU8 : OrlM UInt8 := do
  let cur ← get
  match cur.buf[cur.pos]? with
  | none => throw .truncated
  | some b =>
    set { cur with pos := cur.pos + 1 }
    pure b

/-- Take bytes that are there, or fail. -/
def readSlice (short : OrlError) (len : Nat) : OrlM Bytes := do
  let cur ← get
  if cur.buf.length < cur.pos + len then throw short
  else
    set { cur with pos := cur.pos + len }
    pure ((cur.buf.drop cur.pos).take len)

def readU32 : OrlM Nat := do
  let bytes ← readSlice .truncated 4
  pure (decode bytes)

def readLp : OrlM Bytes := do
  let len ← readU32
  readSlice .badLength len

/-- Fail unless the condition holds. -/
def require (condition : Prop) [Decidable condition] (e : OrlError) : OrlM Unit :=
  if condition then pure () else throw e

/-! ## The two indexes -/

/-- The key of an entry as a text. -/
def keyText (kind : RevokedKind) (id : String) : String :=
  kind.text ++ ":" ++ id

variable {kind kind' : RevokedKind}

/-- A kind has no colon in its name, so a key is read back in one way. -/
theorem keyText_injective {id id' : String} (same : keyText kind id = keyText kind' id') :
    kind = kind' ∧ id = id' := by
  have plain (k : RevokedKind) : ':' ∉ k.text.toList := by
    cases k <;> decide
  have chars := congrArg String.toList same
  simp only [keyText, String.toList_append, append_assoc] at chars
  obtain ⟨kinds, ids⟩ := Lines.eq_of_append_separator (plain kind) (plain kind') chars
  have texts := String.toList_injective kinds
  refine ⟨?_, String.toList_injective ids⟩
  cases kind <;> cases kind' <;> first | rfl | exact absurd texts (by decide)

/-- What differs between the builds with and without the `alloc` feature. -/
structure Backing where
  Key : Type
  Index : Type
  empty : Index
  /-- `make_key`, from a text. -/
  keyOf : RevokedKind → String → Except OrlError Key
  insert : Key → RevokedKind → Index → Except OrlError Index
  containsKey : Key → Index → Bool
  keyOf_injective : ∀ {kind kind' id id' key}, keyOf kind id = .ok key →
    keyOf kind' id' = .ok key → kind = kind' ∧ id = id'
  containsKey_empty : ∀ key, containsKey key empty = false
  containsKey_insert : ∀ {key kind index next}, insert key kind index = .ok next →
    ∀ query, containsKey query next = true ↔ key = query ∨ containsKey query index = true

/-- A `BTreeMap` from `String`. -/
def alloc : Backing where
  Key := String
  Index := List (String × RevokedKind)
  empty := []
  keyOf := fun kind id => .ok (keyText kind id)
  insert := fun key kind index => .ok (AssocMap.insert key kind index)
  containsKey := fun key index => (AssocMap.get? key index).isSome
  keyOf_injective := fun made made' =>
    keyText_injective ((ok.inj made).trans (ok.inj made').symm)
  containsKey_empty := fun _ => rfl
  containsKey_insert := fun inserted query => by
    cases inserted
    exact AssocMap.isSome_get?_insert

def noAllocCapacity : Nat := 256

def noAllocKeyCap : Nat := 128

/-- `make_key` without an allocator: three texts are pushed. -/
def heaplessKey (kind : RevokedKind) (id : String) : Option (Bounded.Str noAllocKeyCap) := do
  let s ← Bounded.Str.empty.pushStr kind.text
  let s ← s.pushStr ":"
  s.pushStr id

variable {kind : RevokedKind}

theorem heaplessKey_eq_some_iff {id : String} {key : Bounded.Str noAllocKeyCap} :
    heaplessKey kind id = some key ↔ key.text = keyText kind id := by
  have once : heaplessKey kind id = Bounded.Str.empty.pushStr (keyText kind id) := by
    simp [heaplessKey, Bounded.Str.pushStr_bind_pushStr, keyText, String.append_assoc]
  rw [once, Bounded.Str.pushStr_eq_some_iff]
  exact Eq.congr_right String.empty_append

/-- A value or the error for none. -/
def okOr {α : Type} (found : Option α) (e : OrlError) : Except OrlError α :=
  found.elim (.error e) .ok

theorem okOr_eq_ok_iff {α : Type} {found : Option α} {e : OrlError} {a : α} :
    okOr found e = .ok a ↔ found = some a := by
  cases found with
  | none => exact iff_of_false nofun nofun
  | some b => exact ⟨fun same => congrArg some (ok.inj same),
      fun same => congrArg Except.ok (Option.some.inj same)⟩

theorem heaplessKey_injective {id id' : String} {key : Bounded.Str noAllocKeyCap} {e : OrlError}
    (made : okOr (heaplessKey kind id) e = .ok key)
    (made' : okOr (heaplessKey kind' id') e = .ok key) : kind = kind' ∧ id = id' := by
  rw [okOr_eq_ok_iff, heaplessKey_eq_some_iff] at made made'
  exact keyText_injective (made.symm.trans made')

/-- A `FnvIndexMap` from `HString`. -/
def heapless : Backing where
  Key := Bounded.Str noAllocKeyCap
  Index := Bounded.Map (Bounded.Str noAllocKeyCap) RevokedKind noAllocCapacity
  empty := .empty
  keyOf := fun kind id => okOr (heaplessKey kind id) .keyTooLarge
  insert := fun key kind index => okOr (index.insert key kind) .capacityExceeded
  containsKey := fun key index => (AssocMap.get? key index.entries).isSome
  keyOf_injective := heaplessKey_injective
  containsKey_empty := fun _ => rfl
  containsKey_insert := fun inserted query => by
    rw [okOr_eq_ok_iff, Bounded.Map.insert_eq_some_iff] at inserted
    rw [inserted]
    exact AssocMap.isSome_get?_insert

/-! ## Loading a list -/

/-- What the checker calls: `sha2`, and `ed25519_compact` with its own checks of a signature
and of a key. -/
structure Device where
  sha256 : Bytes → Bytes
  signatureFromSlice : Bytes → Bool
  publicKeyFromSlice : Bytes → Bool
  verify : Bytes → Bytes → Bytes → Bool

structure OfflineRevocationListChecker (backing : Backing) where
  index : backing.Index

section

variable (backing : Backing)

def makeKey (kind : RevokedKind) (id : Bytes) : Except OrlError backing.Key :=
  match ofUtf8? id with
  | none => .error .keyTooLarge
  | some text => backing.keyOf kind text

/-- The body of the loop over the entries. -/
def readEntry (index : backing.Index) : OrlM backing.Index := do
  let kindByte ← readU8
  match fromU8 kindByte with
  | none => throw .badKind
  | some kind =>
    let id ← readLp
    let key ← makeKey backing kind id
    backing.insert key kind index

/-- The loop over the entries. -/
def readEntries : Nat → backing.Index → OrlM backing.Index
  | 0, index => pure index
  | n + 1, index => do
    let index ← readEntry backing index
    readEntries n index

/-- `OfflineRevocationListChecker::new`, up to the signature. -/
def readBody (now : Bytes) : OrlM backing.Index := do
  let version ← readU8
  require (version = 1) .unsupportedVersion
  let _issuer ← readLp
  let issuedAt ← readLp
  let validUntil ← readLp
  -- `str_le` is inverted twice.
  require (¬validUntil ≤ now) .expired
  require (¬now < issuedAt) .futureDated
  let entryCount ← readU32
  readEntries backing entryCount backing.empty

variable (device : Device)

def OfflineRevocationListChecker.new (listBytes : Bytes) (issuerPub : Key) (now : String) :
    Except OrlError (OfflineRevocationListChecker backing) := do
  let (index, cur) ← readBody backing (utf8 now) ⟨listBytes, 0⟩
  let bodyEnd := cur.pos
  if listBytes.length ≠ bodyEnd + 64 then .error .truncated
  else
    let sig := listBytes.drop bodyEnd
    let digest := device.sha256 (listBytes.take bodyEnd)
    if ¬device.signatureFromSlice sig then .error .badSignature
    else if ¬device.publicKeyFromSlice issuerPub.bytes then .error .badPublicKey
    else if ¬device.verify issuerPub.bytes digest sig then .error .badSignature
    else .ok ⟨index⟩

def OfflineRevocationListChecker.isRevoked {backing : Backing}
    (checker : OfflineRevocationListChecker backing) (kind : RevokedKind) (id : String) : Bool :=
  match makeKey backing kind (utf8 id) with
  | .error _ => false
  | .ok key => backing.containsKey key checker.index

end

/-! ## The layout -/

/-- A field with its length in front. -/
def lengthPrefixed (bytes : Bytes) : Bytes :=
  encode 4 bytes.length ++ bytes

/-- What a list says, before it is signed. -/
structure ListBody where
  issuer : Bytes
  issuedAt : Bytes
  validUntil : Bytes
  entries : List (RevokedKind × String)

def entryBytes (entry : RevokedKind × String) : Bytes :=
  toU8 entry.1 :: lengthPrefixed (utf8 entry.2)

namespace ListBody

/-- The documented layout up to the signature. -/
def bytes (body : ListBody) : Bytes :=
  1 :: lengthPrefixed body.issuer ++ lengthPrefixed body.issuedAt ++
    lengthPrefixed body.validUntil ++ encode 4 body.entries.length ++
    body.entries.flatMap entryBytes

/-- Every length and the count fit their four bytes. -/
structure Fits (body : ListBody) : Prop where
  issuer : body.issuer.length < 2 ^ 32
  issuedAt : body.issuedAt.length < 2 ^ 32
  validUntil : body.validUntil.length < 2 ^ 32
  count : body.entries.length < 2 ^ 32
  ids : ∀ entry ∈ body.entries, (utf8 entry.2).length < 2 ^ 32

/-- A buffer holds a list and 64 bytes for its signature. -/
structure Layout (body : ListBody) (signature buffer : Bytes) : Prop where
  fits : body.Fits
  length : signature.length = 64
  split : buffer = body.bytes ++ signature

end ListBody

/-! ## Reading -/

open Cursor (Exact Follows)

theorem exact_readU8 : Exact readU8 (fun _ => True) fun b => [b] := by
  intro buf cursor input follows b next
  rw [readU8, Program.get_bind_apply]
  cases input with
  | nil =>
    rw [follows.nil]
    constructor
    · intro read
      contradiction
    · rintro ⟨-, rest, split, -⟩
      contradiction
  | cons first rest =>
    obtain ⟨found, -, after⟩ := follows.cons
    rw [found]
    constructor
    · intro read
      cases read
      exact ⟨trivial, rest, rfl, after⟩
    · rintro ⟨-, later, split, afterToo⟩
      cases split
      rw [after.unique afterToo]
      rfl

theorem exact_readSlice (short : OrlError) (len : Nat) :
    Exact (readSlice short len) (fun bytes => bytes.length = len) id := by
  intro buf cursor input follows bytes next
  have left := follows.length_left
  have inside := follows.inside
  rw [readSlice, Program.get_bind_apply]
  by_cases enough : len ≤ input.length
  · rw [if_neg (by omega), follows.left]
    have after := follows.drop enough
    constructor
    · intro read
      cases read
      exact ⟨length_take_of_le enough, _, (take_append_drop len input).symm, after⟩
    · rintro ⟨rfl, rest, rfl, afterToo⟩
      rw [id, drop_left] at after
      rw [id, take_left, after.unique afterToo]
      rfl
  · rw [if_pos (by omega)]
    constructor
    · intro read
      contradiction
    · rintro ⟨rfl, rest, rfl, -⟩
      exact absurd (length_append ▸ Nat.le_add_right _ _) enough

theorem exact_readU32 : Exact readU32 (· < 2 ^ 32) (encode 4) := by
  intro buf cursor input follows n next
  rw [readU32, (exact_readSlice .truncated 4).bind_eq_ok_iff follows]
  constructor
  · rintro ⟨bytes, rest, between, length, split, after, done⟩
    cases done
    have small := decode_lt bytes
    have back := encode_decode bytes
    rw [length] at small back
    exact ⟨small, rest, by rw [back, split, id], after⟩
  · rintro ⟨small, rest, split, after⟩
    refine ⟨encode 4 n, rest, next, length_encode 4 n, split, after, ?_⟩
    rw [decode_encode 4 n small]
    rfl

theorem exact_readLp : Exact readLp (·.length < 2 ^ 32) lengthPrefixed := by
  intro buf cursor input follows bytes next
  rw [readLp, exact_readU32.bind_eq_ok_iff follows]
  constructor
  · rintro ⟨len, between, inner, small, split, after, read⟩
    obtain ⟨rfl, rest, splitRest, afterRest⟩ := (exact_readSlice _ _ _ _ _ after _ _).mp read
    exact ⟨small, rest, by rw [split, splitRest, lengthPrefixed, append_assoc, id], afterRest⟩
  · rintro ⟨small, rest, split, after⟩
    rw [lengthPrefixed, append_assoc] at split
    have middle := (split ▸ follows : Follows buf cursor (encode 4 bytes.length ++ _)).skip
    exact ⟨bytes.length, _, _, small, split, middle,
      (exact_readSlice _ _ _ _ _ middle _ _).mpr ⟨rfl, rest, rfl, after⟩⟩

variable {cursor next : Cursor UInt8}

theorem require_bind_eq_ok_iff {α : Type} {condition : Prop} [Decidable condition] {e : OrlError}
    {p : OrlM α} {a : α} :
    (require condition e >>= fun _ => p) cursor = .ok (a, next) ↔
      condition ∧ p cursor = .ok (a, next) := by
  unfold require
  by_cases holds : condition
  · rw [if_pos holds]
    exact ⟨fun run => ⟨holds, run⟩, fun run => run.2⟩
  · rw [if_neg holds]
    constructor
    · intro run
      contradiction
    · intro run
      exact absurd run.1 holds

theorem fromU8_eq_some_iff {b : UInt8} : fromU8 b = some kind ↔ b = toU8 kind := by
  constructor
  · intro read
    have value : b = UInt8.ofNat b.toNat := UInt8.ofNat_toNat.symm
    unfold fromU8 at read
    split at read <;> cases read <;> simp_all [toU8]
  · rintro rfl
    cases kind <;> rfl

theorem toU8_injective (same : toU8 kind = toU8 kind') : kind = kind' :=
  Option.some.inj ((fromU8_eq_some_iff.mpr rfl).symm.trans (fromU8_eq_some_iff.mpr same))

/-- As many entries are printed in one way. -/
theorem flatMap_entryBytes_inj {entries entries' : List (RevokedKind × String)}
    {rest rest' : Bytes} (short : ∀ entry ∈ entries, (utf8 entry.2).length < 2 ^ 32)
    (shortToo : ∀ entry ∈ entries', (utf8 entry.2).length < 2 ^ 32)
    (count : entries.length = entries'.length)
    (same : entries.flatMap entryBytes ++ rest = entries'.flatMap entryBytes ++ rest') :
    entries = entries' ∧ rest = rest' := by
  induction entries generalizing entries' with
  | nil =>
    obtain rfl := length_eq_zero_iff.mp count.symm
    exact ⟨rfl, same⟩
  | cons entry entries ih =>
    cases entries' with
    | nil => contradiction
    | cons entry' entries' =>
      obtain ⟨small, shortRest⟩ := forall_mem_cons.mp short
      obtain ⟨smallToo, shortRestToo⟩ := forall_mem_cons.mp shortToo
      simp only [flatMap_cons, entryBytes, append_assoc, cons_append, cons.injEq] at same
      obtain ⟨ids, later⟩ := exact_readLp.print_inj small smallToo same.2
      obtain ⟨rfl, rfl⟩ := ih shortRest shortRestToo (Nat.succ.inj count) later
      exact ⟨congrArg (· :: entries)
        (Prod.ext (toU8_injective same.1) (utf8_injective ids)), rfl⟩

/-- A buffer is the layout of one list. -/
theorem ListBody.Layout.unique {body body' : ListBody} {signature signature' buffer : Bytes}
    (layout : body.Layout signature buffer) (layoutToo : body'.Layout signature' buffer) :
    body = body' ∧ signature = signature' := by
  have fits := layout.fits
  have fitsToo := layoutToo.fits
  have same := layout.split.symm.trans layoutToo.split
  simp only [ListBody.bytes, append_assoc, cons_append, cons.injEq, true_and] at same
  obtain ⟨issuers, afterIssuer⟩ := exact_readLp.print_inj fits.issuer fitsToo.issuer same
  obtain ⟨issued, afterIssued⟩ := exact_readLp.print_inj fits.issuedAt fitsToo.issuedAt afterIssuer
  obtain ⟨valid, afterValid⟩ := exact_readLp.print_inj fits.validUntil fitsToo.validUntil afterIssued
  obtain ⟨count, afterCount⟩ := exact_readU32.print_inj fits.count fitsToo.count afterValid
  obtain ⟨entries, signatures⟩ := flatMap_entryBytes_inj fits.ids fitsToo.ids count afterCount
  rcases body with ⟨issuer, issuedAt, validUntil, all⟩
  rcases body' with ⟨issuer', issuedAt', validUntil', all'⟩
  cases issuers
  cases issued
  cases valid
  cases entries
  exact ⟨rfl, signatures⟩

section

variable {backing : Backing}

/-- What the loop does to the index. -/
def insertEntry (backing : Backing) (index : backing.Index) (entry : RevokedKind × String) :
    Except OrlError backing.Index := do
  let key ← backing.keyOf entry.1 entry.2
  backing.insert key entry.1 index

theorem makeKey_eq_ok_iff {id : Bytes} {key : backing.Key} :
    makeKey backing kind id = .ok key ↔
      ∃ text, utf8 text = id ∧ backing.keyOf kind text = .ok key := by
  unfold makeKey
  constructor
  · intro made
    cases decoded : ofUtf8? id with
    | none =>
      rw [decoded] at made
      contradiction
    | some text =>
      rw [decoded] at made
      exact ⟨text, utf8_of_ofUtf8? decoded, made⟩
  · rintro ⟨text, rfl, named⟩
    rw [ofUtf8?_utf8]
    exact named

theorem readEntry_eq_ok_iff {buf : Bytes} {input : Bytes} (follows : Follows buf cursor input)
    (index out : backing.Index) :
    readEntry backing index cursor = .ok (out, next) ↔
      ∃ entry rest, (utf8 entry.2).length < 2 ^ 32 ∧ insertEntry backing index entry = .ok out ∧
        input = entryBytes entry ++ rest ∧ Follows buf next rest := by
  rw [readEntry, exact_readU8.bind_eq_ok_iff follows]
  constructor
  · rintro ⟨kindByte, afterKind, atId, -, splitKind, followsId, read⟩
    cases known : fromU8 kindByte with
    | none =>
      rw [known] at read
      contradiction
    | some kind =>
      rw [known] at read
      obtain ⟨id, rest, atEnd, small, splitId, followsEnd, readKey⟩ :=
        (exact_readLp.bind_eq_ok_iff followsId).mp read
      obtain ⟨key, made, readIndex⟩ := Program.liftM_bind_eq_ok_iff.mp readKey
      obtain ⟨text, rfl, named⟩ := makeKey_eq_ok_iff.mp made
      obtain ⟨inserted, rfl⟩ := Program.liftM_eq_ok_iff.mp readIndex
      refine ⟨(kind, text), rest, small, bind_eq_ok_iff.mpr ⟨key, named, inserted⟩, ?_,
        followsEnd⟩
      rw [splitKind, splitId, fromU8_eq_some_iff.mp known]
      rfl
  · rintro ⟨⟨kind, text⟩, rest, small, inserted, split, followsEnd⟩
    obtain ⟨key, named, insertedKey⟩ := bind_eq_ok_iff.mp inserted
    have followsId := (split ▸ follows : Follows buf cursor ([toU8 kind] ++ _)).skip
    refine ⟨toU8 kind, _, _, trivial, split, followsId, ?_⟩
    rw [fromU8_eq_some_iff.mpr rfl]
    refine (exact_readLp.bind_eq_ok_iff followsId).mpr ⟨_, rest, next, small, rfl, followsEnd, ?_⟩
    rw [Program.liftM_bind_eq_ok_iff]
    exact ⟨key, makeKey_eq_ok_iff.mpr ⟨text, rfl, named⟩,
      Program.liftM_eq_ok_iff.mpr ⟨insertedKey, rfl⟩⟩

/-- A count of entries is read, and all of them are indexed. -/
theorem readEntries_eq_ok_iff {buf : Bytes} {input : Bytes} (follows : Follows buf cursor input)
    (n : Nat) (index out : backing.Index) :
    readEntries backing n index cursor = .ok (out, next) ↔
      ∃ (entries : List (RevokedKind × String)) (rest : Bytes), entries.length = n ∧
        (∀ entry ∈ entries, (utf8 entry.2).length < 2 ^ 32) ∧
        entries.foldlM (insertEntry backing) index = .ok out ∧
        input = entries.flatMap entryBytes ++ rest ∧ Follows buf next rest := by
  induction n generalizing index cursor input with
  | zero =>
    constructor
    · intro read
      cases read
      exact ⟨[], input, rfl, forall_mem_nil _, rfl, rfl, follows⟩
    · rintro ⟨entries, rest, none, -, indexed, split, after⟩
      rw [length_eq_zero_iff] at none
      subst none
      cases indexed
      rw [flatMap_nil, nil_append] at split
      subst split
      rw [after.unique follows]
      rfl
  | succ n ih =>
    rw [readEntries, Program.bind_eq_ok_iff]
    constructor
    · rintro ⟨grown, between, read, readRest⟩
      obtain ⟨entry, later, small, inserted, split, after⟩ :=
        (readEntry_eq_ok_iff follows index grown).mp read
      obtain ⟨entries, rest, count, short, indexed, splitRest, followsEnd⟩ :=
        (ih after grown).mp readRest
      refine ⟨entry :: entries, rest, by rw [length_cons, count],
        forall_mem_cons.mpr ⟨small, short⟩, ?_, ?_, followsEnd⟩
      · rw [foldlM_cons]
        exact bind_eq_ok_iff.mpr ⟨grown, inserted, indexed⟩
      · rw [split, splitRest, flatMap_cons, append_assoc]
    · rintro ⟨entries, rest, count, short, indexed, split, followsEnd⟩
      cases entries with
      | nil => contradiction
      | cons entry entries =>
        rw [foldlM_cons] at indexed
        obtain ⟨grown, inserted, indexedRest⟩ := bind_eq_ok_iff.mp indexed
        obtain ⟨small, shortRest⟩ := forall_mem_cons.mp short
        rw [flatMap_cons, append_assoc] at split
        have after := (split ▸ follows : Follows buf cursor (entryBytes entry ++ _)).skip
        exact ⟨grown, _,
          (readEntry_eq_ok_iff follows index grown).mpr ⟨entry, _, small, inserted, split, after⟩,
          (ih after grown).mpr ⟨entries, rest, Nat.succ.inj count, shortRest, indexedRest, rfl,
            followsEnd⟩⟩

/-- The index of a list of entries. -/
def indexAll (backing : Backing) (entries : List (RevokedKind × String)) :
    Except OrlError backing.Index :=
  entries.foldlM (insertEntry backing) backing.empty

/-- A body is read exactly if it is well formed, current and can be indexed. -/
theorem readBody_eq_ok_iff {buf : Bytes} {input : Bytes} (follows : Follows buf cursor input)
    (now : Bytes) (index : backing.Index) :
    readBody backing now cursor = .ok (index, next) ↔
      ∃ (body : ListBody) (rest : Bytes), body.Fits ∧ ¬body.validUntil ≤ now ∧
        ¬now < body.issuedAt ∧ indexAll backing body.entries = .ok index ∧
        input = body.bytes ++ rest ∧ Follows buf next rest := by
  rw [readBody, exact_readU8.bind_eq_ok_iff follows]
  constructor
  · rintro ⟨version, afterVersion, atIssuer, -, split, followsIssuer, readVersion⟩
    obtain ⟨versionOne, readIssuer⟩ := require_bind_eq_ok_iff.mp readVersion
    subst versionOne
    obtain ⟨issuer, afterIssuer, atIssued, issuerFits, splitIssuer, followsIssued, readIssued⟩ :=
      (exact_readLp.bind_eq_ok_iff followsIssuer).mp readIssuer
    obtain ⟨issuedAt, afterIssued, atValid, issuedFits, splitIssued, followsValid, readValid⟩ :=
      (exact_readLp.bind_eq_ok_iff followsIssued).mp readIssued
    obtain ⟨validUntil, afterValid, atCount, validFits, splitValid, followsCount, readTimes⟩ :=
      (exact_readLp.bind_eq_ok_iff followsValid).mp readValid
    obtain ⟨current, readDate⟩ := require_bind_eq_ok_iff.mp readTimes
    obtain ⟨dated, readCount⟩ := require_bind_eq_ok_iff.mp readDate
    obtain ⟨count, afterCount, atEntries, countFits, splitCount, followsEntries, readAll⟩ :=
      (exact_readU32.bind_eq_ok_iff followsCount).mp readCount
    obtain ⟨entries, rest, length, short, indexed, splitEntries, followsEnd⟩ :=
      (readEntries_eq_ok_iff followsEntries count _ index).mp readAll
    subst length
    refine ⟨⟨issuer, issuedAt, validUntil, entries⟩, rest,
      ⟨issuerFits, issuedFits, validFits, countFits, short⟩, current, dated, indexed, ?_, followsEnd⟩
    rw [split, splitIssuer, splitIssued, splitValid, splitCount, splitEntries, ListBody.bytes]
    simp
  · rintro ⟨⟨issuer, issuedAt, validUntil, entries⟩, rest, fits, current, dated, indexed, split,
      followsEnd⟩
    simp only [ListBody.bytes, append_assoc] at split
    subst split
    have followsIssuer := follows.cons.2.2
    have followsIssued := followsIssuer.skip
    have followsValid := followsIssued.skip
    have followsCount := followsValid.skip
    have followsEntries := followsCount.skip
    refine ⟨1, _, _, trivial, rfl, followsIssuer, require_bind_eq_ok_iff.mpr ⟨rfl, ?_⟩⟩
    refine (exact_readLp.bind_eq_ok_iff followsIssuer).mpr
      ⟨issuer, _, _, fits.issuer, rfl, followsIssued, ?_⟩
    refine (exact_readLp.bind_eq_ok_iff followsIssued).mpr
      ⟨issuedAt, _, _, fits.issuedAt, rfl, followsValid, ?_⟩
    refine (exact_readLp.bind_eq_ok_iff followsValid).mpr
      ⟨validUntil, _, _, fits.validUntil, rfl, followsCount, ?_⟩
    refine require_bind_eq_ok_iff.mpr ⟨current, require_bind_eq_ok_iff.mpr ⟨dated, ?_⟩⟩
    refine (exact_readU32.bind_eq_ok_iff followsCount).mpr
      ⟨entries.length, _, _, fits.count, rfl, followsEntries, ?_⟩
    exact (readEntries_eq_ok_iff followsEntries entries.length _ index).mpr
      ⟨entries, rest, rfl, fits.ids, indexed, rfl, followsEnd⟩

variable {entries : List (RevokedKind × String)}

/-- Every entry of an index has a key. -/
theorem exists_keyOf_of_mem {index out : backing.Index}
    (indexed : entries.foldlM (insertEntry backing) index = .ok out)
    {entry : RevokedKind × String} (mem : entry ∈ entries) :
    ∃ key, backing.keyOf entry.1 entry.2 = .ok key := by
  induction entries generalizing index with
  | nil => contradiction
  | cons first entries ih =>
    rw [foldlM_cons] at indexed
    obtain ⟨grown, inserted, indexedRest⟩ := bind_eq_ok indexed
    rcases mem_cons.mp mem with rfl | later
    · obtain ⟨key, named, -⟩ := bind_eq_ok inserted
      exact ⟨key, named⟩
    · exact ih indexedRest later

/-- The keys of an index are those it had and those of the entries. -/
theorem containsKey_foldlM {index out : backing.Index}
    (indexed : entries.foldlM (insertEntry backing) index = .ok out) (query : backing.Key) :
    backing.containsKey query out = true ↔
      backing.containsKey query index = true ∨
        ∃ entry ∈ entries, backing.keyOf entry.1 entry.2 = .ok query := by
  induction entries generalizing index with
  | nil =>
    cases indexed
    simp
  | cons first entries ih =>
    rw [foldlM_cons] at indexed
    obtain ⟨grown, inserted, indexedRest⟩ := bind_eq_ok indexed
    obtain ⟨key, named, insertedKey⟩ := bind_eq_ok inserted
    rw [ih indexedRest, backing.containsKey_insert insertedKey, exists_mem_cons_iff, named,
      ok.injEq, or_comm (a := key = query), or_assoc]

/-- A target is revoked exactly if the list has an entry for it. -/
theorem isRevoked_iff {index : backing.Index}
    (indexed : indexAll backing entries = .ok index) (kind : RevokedKind) (id : String) :
    OfflineRevocationListChecker.isRevoked ⟨index⟩ kind id = true ↔ (kind, id) ∈ entries := by
  unfold OfflineRevocationListChecker.isRevoked
  cases made : makeKey backing kind (utf8 id) with
  | error e =>
    refine iff_of_false Bool.false_ne_true fun mem => ?_
    obtain ⟨key, named⟩ := exists_keyOf_of_mem indexed mem
    rw [makeKey_eq_ok_iff.mpr ⟨id, rfl, named⟩] at made
    contradiction
  | ok key =>
    obtain ⟨text, same, named⟩ := makeKey_eq_ok_iff.mp made
    rw [utf8_injective same] at named
    simp only [containsKey_foldlM indexed, backing.containsKey_empty, Bool.false_eq_true, false_or]
    constructor
    · rintro ⟨⟨kind', id'⟩, mem, named'⟩
      obtain ⟨rfl, rfl⟩ := backing.keyOf_injective named named'
      exact mem
    · intro mem
      exact ⟨(kind, id), mem, named⟩

end

/-! ## What is accepted -/

/-- The key and the signature are well formed and the signature is over the digest. -/
structure Device.Verifies (device : Device) (issuerPub : Key) (digest signature : Bytes) : Prop where
  parsed : device.signatureFromSlice signature = true
  publicKey : device.publicKeyFromSlice issuerPub.bytes = true
  verified : device.verify issuerPub.bytes digest signature = true

/-- A current body at the start of a buffer is read. -/
theorem readBody_of_layout {backing : Backing} {body : ListBody} {signature listBytes now : Bytes}
    {index : backing.Index} (layout : body.Layout signature listBytes)
    (current : ¬body.validUntil ≤ now) (dated : ¬now < body.issuedAt)
    (indexed : indexAll backing body.entries = .ok index) :
    readBody backing now ⟨listBytes, 0⟩ = .ok (index, ⟨listBytes, body.bytes.length⟩) := by
  obtain ⟨fits, -, rfl⟩ := layout
  have start := Cursor.follows_start (body.bytes ++ signature)
  have follows := start.skip
  rw [zero_add] at follows
  exact (readBody_eq_ok_iff start now index).mpr
    ⟨body, signature, fits, current, dated, indexed, rfl, follows⟩

theorem new_eq_ok_iff {backing : Backing} {device : Device} {listBytes : Bytes} {issuerPub : Key}
    {now : String} {checker : OfflineRevocationListChecker backing} :
    OfflineRevocationListChecker.new backing device listBytes issuerPub now = .ok checker ↔
      ∃ (body : ListBody) (signature : Bytes), body.Layout signature listBytes ∧
        ¬body.validUntil ≤ utf8 now ∧ ¬utf8 now < body.issuedAt ∧
        indexAll backing body.entries = .ok checker.index ∧
        device.Verifies issuerPub (device.sha256 body.bytes) signature := by
  rw [OfflineRevocationListChecker.new, bind_eq_ok_iff]
  constructor
  · rintro ⟨⟨index, cur⟩, read, checked⟩
    obtain ⟨body, rest, fits, current, dated, indexed, split, follows⟩ :=
      (readBody_eq_ok_iff (Cursor.follows_start listBytes) _ index).mp read
    have stop := follows.eq_of_append split
    subst stop split
    simp only [drop_left, take_left, length_append] at checked
    obtain ⟨length, parsed⟩ := ite_eq_ok checked
    obtain ⟨signature, keyed⟩ := ite_eq_ok parsed
    obtain ⟨publicKey, compared⟩ := ite_eq_ok keyed
    obtain ⟨verified, done⟩ := ite_eq_ok compared
    cases done
    rw [not_not] at length signature publicKey verified
    exact ⟨body, rest, ⟨fits, by omega, rfl⟩, current, dated, indexed, signature, publicKey, verified⟩
  · rintro ⟨body, signature, layout, current, dated, indexed, verifies⟩
    refine ⟨_, readBody_of_layout layout current dated indexed, ?_⟩
    obtain ⟨-, length, rfl⟩ := layout
    have verified : ¬¬device.verify issuerPub.bytes (device.sha256 body.bytes) signature = true :=
      not_not.mpr verifies.verified
    simp only [drop_left, take_left, length_append, length, verifies.parsed,
      verifies.publicKey, ne_eq, not_true_eq_false, ↓reduceIte]
    rw [if_neg verified]

/-- A growing map takes every entry. -/
theorem exists_indexAll_alloc (entries : List (RevokedKind × String)) :
    ∃ index, indexAll alloc entries = .ok index := by
  have grows (index : alloc.Index) :
      ∃ out, entries.foldlM (insertEntry alloc) index = .ok out := by
    induction entries generalizing index with
    | nil => exact ⟨index, rfl⟩
    | cons entry entries ih => exact ih _
  exact grows alloc.empty

/-- With an allocator, exactly the documented layout with a signature that verifies is
accepted, and the entries are what is revoked.  The times are those of a list that is read
well within them. -/
theorem new_accepts_exactly (device : Device) (listBytes : Bytes) (issuerPub : Key) (now : String)
    (current : ∀ body signature, ListBody.Layout body signature listBytes →
      body.issuedAt < utf8 now ∧ utf8 now < body.validUntil) :
    ((∃ checker, OfflineRevocationListChecker.new alloc device listBytes issuerPub now = .ok checker) ↔
      ∃ body signature, ListBody.Layout body signature listBytes ∧
        device.Verifies issuerPub (device.sha256 body.bytes) signature) ∧
    ∀ checker, OfflineRevocationListChecker.new alloc device listBytes issuerPub now = .ok checker →
      ∀ body signature, ListBody.Layout body signature listBytes → ∀ kind id,
        checker.isRevoked kind id = true ↔ (kind, id) ∈ body.entries := by
  constructor
  · constructor
    · rintro ⟨checker, accepted⟩
      obtain ⟨body, signature, layout, -, -, -, verifies⟩ := new_eq_ok_iff.mp accepted
      exact ⟨body, signature, layout, verifies⟩
    · rintro ⟨body, signature, layout, verifies⟩
      obtain ⟨issued, valid⟩ := current body signature layout
      obtain ⟨index, indexed⟩ := exists_indexAll_alloc body.entries
      exact ⟨⟨index⟩, new_eq_ok_iff.mpr
        ⟨body, signature, layout, List.not_le.mpr valid, (List.lt_asymm issued), indexed, verifies⟩⟩
  · intro checker accepted body signature layout kind id
    obtain ⟨own, ownSignature, ownLayout, -, -, indexed, -⟩ := new_eq_ok_iff.mp accepted
    rw [(layout.unique ownLayout).1]
    exact isRevoked_iff indexed kind id

/-- Signatures that repeat the key and the digest. -/
def mirror : Device where
  sha256 := id
  signatureFromSlice := fun signature => signature.length = 64
  publicKeyFromSlice := fun publicKey => publicKey.length = 32
  verify := fun publicKey digest signature => signature = (publicKey ++ digest).take 64

/-- A list that revokes one key. -/
def oneKey : ListBody where
  issuer := utf8 "tf:actor:authority:example.com/root"
  issuedAt := utf8 "2026-01-01T00:00:00Z"
  validUntil := utf8 "2099-01-01T00:00:00Z"
  entries := [(.key, "tf:key:1234")]

/-- Its signature under a key. -/
def oneKeySignature (issuerPub : Key) : Bytes :=
  (issuerPub.bytes ++ oneKey.bytes).take 64

theorem layout_oneKey : oneKey.Layout (oneKeySignature (Key.filled [7]))
    (oneKey.bytes ++ oneKeySignature (Key.filled [7])) :=
  ⟨⟨by decide +kernel, by decide +kernel, by decide +kernel, by decide +kernel, by decide +kernel⟩,
    by decide +kernel, rfl⟩

theorem new_accepts_exactly_oneKey :
    ∃ checker, OfflineRevocationListChecker.new alloc mirror
        (oneKey.bytes ++ oneKeySignature (Key.filled [7])) (Key.filled [7]) "2026-04-25T00:00:00Z" =
          .ok checker ∧
      checker.isRevoked .key "tf:key:1234" = true ∧ checker.isRevoked .actor "tf:key:1234" = false := by
  have exactly := new_accepts_exactly mirror (oneKey.bytes ++ oneKeySignature (Key.filled [7]))
    (Key.filled [7]) "2026-04-25T00:00:00Z" fun body signature layout => by
      rw [(layout.unique layout_oneKey).1]
      decide +kernel
  obtain ⟨checker, accepted⟩ := exactly.1.mpr ⟨oneKey, oneKeySignature (Key.filled [7]),
    layout_oneKey, by decide +kernel, by decide +kernel, by decide +kernel⟩
  have answers := exactly.2 checker accepted oneKey _ layout_oneKey
  refine ⟨checker, accepted, (answers .key _).mpr (by decide), ?_⟩
  rw [Bool.eq_false_iff, ne_eq, answers]
  decide

end TrustForge.NoStd
