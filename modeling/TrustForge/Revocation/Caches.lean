import TrustForge.FileStore.Revocations
import TrustForge.Revocation.Index

/-!
# Revocation caches

The caches keep one instant for each target, and the last insert of a target replaces the
ones before it.  The revocation index keeps the earliest.  The cache in Redis keeps its
targets under keys that join the kind and the id by a colon; the one in SQL keeps the pair.
-/

namespace TrustForge.RevocationCache

open String hiding append_assoc map_map
open Lines List AssocMap
open FileStore (Entry fresh)

/-! ## The last insert and the earliest -/

variable (inserts : List Entry)

/-- The last insert of a target takes effect no later than the others. -/
def LastIsEarliest : Prop :=
  ∀ before entry after, inserts = before ++ entry :: after → entry.1 ∉ AssocMap.keys after →
    ∀ other ∈ inserts, other.1 = entry.1 → entry.2 ≤ other.2

/-- The file cache answers by the last insert of a target. -/
theorem isRevoked_insertAll_iff (kind id instant : String) :
    (fresh.insertAll inserts).isRevoked kind id instant = true ↔
      ∃ effectiveAt, AssocMap.get? (kind, id) (AssocMap.ofPairs inserts) = some effectiveAt ∧
        effectiveAt ≤ instant := by
  have table : (fresh.insertAll inserts).state.revocations = AssocMap.ofPairs inserts :=
    FileStore.Store.insertAll_revocations fresh inserts
  rw [FileStore.Store.isRevoked, table, Option.any_eq_true]
  simp

/-- The file cache answers for all inserts, as the index does, exactly when the last insert of
every target is its earliest. -/
theorem fileCache_answers_iff :
    ((∀ kind id instant, (fresh.insertAll inserts).isRevoked kind id instant = true ↔
        ∃ entry ∈ inserts, entry.1 = (kind, id) ∧ entry.2 ≤ instant) ↔
      LastIsEarliest inserts) ∧
      ∀ revocations id kind instant,
        (RevocationIndex.fromSlice revocations).isRevoked id kind instant = true ↔
          ∃ r ∈ revocations, RevocationIndex.InEffect r id kind instant := by
  refine ⟨?_, RevocationIndex.isRevoked_fromSlice_iff⟩
  simp only [isRevoked_insertAll_iff]
  constructor
  · rintro answers before ⟨⟨kind, id⟩, effectiveAt⟩ after shape last ⟨target, instant⟩ member same
    rcases (answers kind id instant).mpr ⟨_, member, same, le_rfl⟩ with ⟨kept, here, inEffect⟩
    have stays := (AssocMap.get?_ofPairs_eq_some_iff _ _ _).mpr ⟨before, after, shape, last⟩
    rw [stays, Option.some.injEq] at here
    exact here ▸ inEffect
  · intro earliest kind id instant
    constructor
    · rintro ⟨effectiveAt, kept, inEffect⟩
      rcases (AssocMap.get?_ofPairs_eq_some_iff _ _ _).mp kept with ⟨before, after, shape, _⟩
      exact ⟨((kind, id), effectiveAt), by rw [shape]; simp, rfl, inEffect⟩
    · rintro ⟨entry, member, target, inEffect⟩
      have known : (kind, id) ∈ AssocMap.keys (AssocMap.ofPairs inserts) := by
        rw [mem_keys_ofPairs_iff, ← target]
        exact mem_map_of_mem member
      rcases (AssocMap.mem_keys_iff _ _).mp known with ⟨effectiveAt, kept⟩
      rcases (AssocMap.get?_ofPairs_eq_some_iff _ _ _).mp kept with ⟨before, after, shape, last⟩
      have first := earliest before _ after shape last entry member target
      exact ⟨effectiveAt, kept, first.trans inEffect⟩

/-- A later insert with a later instant takes a revocation back, which the index does not. -/
theorem later_insert_reinstates :
    (fresh.insertAll [(("actor", "a"), "2026-01-01")]).isRevoked "actor" "a" "2026-03-01" = true ∧
      (fresh.insertAll [(("actor", "a"), "2026-01-01"), (("actor", "a"), "2026-06-01")]).isRevoked
        "actor" "a" "2026-03-01" = false ∧
      (RevocationIndex.fromSlice [⟨"a", .actor, "2026-01-01"⟩, ⟨"a", .actor, "2026-06-01"⟩]).isRevoked
        "a" .actor "2026-03-01" = true := by
  decide +kernel

/-! ## Redis -/

/-- The strings of a Redis server, by key. -/
abbrev Redis := List (String × String)

namespace Redis

def keyPrefix : String :=
  "tf:revoke:"

def key (kind id : String) : String :=
  keyPrefix ++ kind ++ ":" ++ id

variable (redis : Redis)

def insert (kind id effectiveAt : String) : Redis :=
  AssocMap.insert (key kind id) effectiveAt redis

def isRevoked (kind id instant : String) : Bool :=
  (AssocMap.get? (key kind id) redis).any fun eff => eff ≤ instant

/-- `str::strip_prefix`. -/
def strip (k : String) : Option (List Char) :=
  if keyPrefix.toList.isPrefixOf k.toList then some (k.toList.drop keyPrefix.toList.length)
  else none

/-- One turn of the loop of `list`. -/
def listed (k : String) : Option (String × String × String) := do
  let rest ← strip k
  let (kind, id) ← splitOnce ':' rest
  let eff ← AssocMap.get? k redis
  some (String.ofList kind, String.ofList id, eff)

/-- The order of triples that `sort` uses. -/
def lexKey (x : String × String × String) : String ×ₗ (String ×ₗ String) :=
  toLex (x.1, toLex x.2)

/-- `sort` on triples. -/
def sort (rows : List (String × String × String)) : List (String × String × String) :=
  rows.insertionSort fun x y => lexKey x ≤ lexKey y

/-- `RedisRevocationCache::list`.  The server may give the keys in any order. -/
def list : List (String × String × String) :=
  sort ((AssocMap.keys redis).filterMap redis.listed)

end Redis

/-! ## SQL -/

/-- The rows of the table `revocations`, whose key is the kind and the id. -/
abbrev Sql := List Entry

namespace Sql

def insert (sql : Sql) (kind id effectiveAt : String) : Sql :=
  AssocMap.insert (kind, id) effectiveAt sql

def isRevoked (sql : Sql) (kind id instant : String) : Bool :=
  (AssocMap.get? (kind, id) sql).any fun eff => eff ≤ instant

def list (sql : Sql) : List (String × String × String) :=
  (sql.insertionSort fun x y => toLex x.1 ≤ toLex y.1).map fun row => (row.1.1, row.1.2, row.2)

end Sql

variable (inserts : List Entry)

/-- Inserts in order into an empty Redis. -/
def redisOf : Redis :=
  inserts.foldl (fun redis entry => redis.insert entry.1.1 entry.1.2 entry.2) []

/-- Inserts in order into an empty table. -/
def sqlOf : Sql :=
  inserts.foldl (fun sql entry => sql.insert entry.1.1 entry.1.2 entry.2) []

theorem redisOf_eq_ofPairs :
    redisOf inserts =
      AssocMap.ofPairs (inserts.map fun entry => (Redis.key entry.1.1 entry.1.2, entry.2)) := by
  rw [AssocMap.ofPairs, foldl_map]
  rfl

theorem sqlOf_eq_ofPairs : sqlOf inserts = AssocMap.ofPairs inserts :=
  rfl

/-! ## Keys -/

namespace Redis

theorem toList_key (kind id : String) :
    (key kind id).toList = keyPrefix.toList ++ (kind.toList ++ ':' :: id.toList) := by
  simp only [key, toList_append, append_assoc]
  rfl

theorem strip_eq_some_iff (k : String) (rest : List Char) :
    strip k = some rest ↔ k.toList = keyPrefix.toList ++ rest := by
  rw [strip]
  constructor
  · intro stripped
    split at stripped
    · rename_i within
      rcases isPrefixOf_iff_prefix.mp within with ⟨tail, shape⟩
      rw [← shape, drop_left, Option.some.injEq] at stripped
      rw [← stripped, shape]
    · contradiction
  · intro shape
    rw [shape, drop_left, if_pos (List.isPrefixOf_iff_prefix.mpr (prefix_append _ _))]

/-- The keys that `list` shows, and as what. -/
theorem listed_eq_some_iff (redis : Redis) (k kind id eff : String) :
    redis.listed k = some (kind, id, eff) ↔
      ':' ∉ kind.toList ∧ k = key kind id ∧ AssocMap.get? k redis = some eff := by
  rw [listed]
  constructor
  · intro found
    rcases Option.bind_eq_some_iff.mp found with ⟨rest, stripped, later⟩
    rcases Option.bind_eq_some_iff.mp later with ⟨⟨first, second⟩, split, last⟩
    rcases Option.bind_eq_some_iff.mp last with ⟨kept, known, equal⟩
    rcases eq_append_of_splitOnce split with ⟨shape, plain⟩
    cases equal
    refine ⟨by rwa [toList_ofList], toList_injective ?_, known⟩
    rw [toList_key, (strip_eq_some_iff _ _).mp stripped, shape, toList_ofList, toList_ofList]
  · rintro ⟨plain, equal, known⟩
    have stripped := (strip_eq_some_iff k _).mpr (equal ▸ toList_key kind id)
    have split := splitOnce_append ':' plain id.toList
    simp [stripped, split, known]

/-- Kinds and ids without a colon can be told from the key. -/
theorem key_inj {kind id kind' id' : String} (plainKind : ':' ∉ kind'.toList)
    (plainId : ':' ∉ id'.toList) (same : key kind id = key kind' id') :
    kind = kind' ∧ id = id' := by
  have lists := congrArg String.toList same
  rw [toList_key, toList_key, append_cancel_left_eq] at lists
  cases split : splitOnce ':' kind.toList with
  | none =>
    have plain := (splitOnce_eq_none_iff _ _).mp split
    rcases eq_of_append_separator plain plainKind lists with ⟨first, second⟩
    exact ⟨toList_injective first, toList_injective second⟩
  | some parts =>
    rcases eq_append_of_splitOnce split with ⟨shape, plain⟩
    rw [shape, append_assoc, cons_append] at lists
    have later := (eq_of_append_separator plain plainKind lists).2
    rw [← later] at plainId
    exact absurd (by simp) plainId

theorem mem_list_iff (redis : Redis) (kind id eff : String) :
    (kind, id, eff) ∈ redis.list ↔
      ':' ∉ kind.toList ∧ AssocMap.get? (key kind id) redis = some eff := by
  rw [list, sort, mem_insertionSort, mem_filterMap]
  simp only [listed_eq_some_iff]
  constructor
  · rintro ⟨k, _, plain, equal, known⟩
    exact ⟨plain, equal ▸ known⟩
  · rintro ⟨plain, known⟩
    exact ⟨key kind id, (AssocMap.mem_keys_iff _ _).mpr ⟨eff, known⟩, plain, rfl, known⟩

end Redis

namespace Sql

theorem mem_list_iff {sql : Sql} (nodup : (AssocMap.keys sql).Nodup) (kind id eff : String) :
    (kind, id, eff) ∈ sql.list ↔ AssocMap.get? (kind, id) sql = some eff := by
  rw [AssocMap.get?_eq_some_iff_of_nodup sql nodup, list, mem_map]
  simp only [mem_insertionSort]
  constructor
  · rintro ⟨⟨⟨k, i⟩, e⟩, member, equal⟩
    cases equal
    exact member
  · intro member
    exact ⟨_, member, rfl⟩

end Sql

theorem Redis.mem_sort {rows : List (String × String × String)} {row : String × String × String} :
    row ∈ sort rows ↔ row ∈ rows :=
  mem_insertionSort _

/-- Sorting forgets the order. -/
theorem Redis.sort_eq_of_perm {left right : List (String × String × String)}
    (perm : left.Perm right) : sort left = sort right := by
  have total : Std.Total fun x y : String × String × String => lexKey x ≤ lexKey y :=
    ⟨fun x y => le_total (lexKey x) (lexKey y)⟩
  have trans : IsTrans (String × String × String) fun x y => lexKey x ≤ lexKey y :=
    ⟨fun _ _ _ first second => le_trans first second⟩
  have sortedPerm : (sort left).Perm (sort right) :=
    (perm_insertionSort _ left).trans (perm.trans (perm_insertionSort _ right).symm)
  refine sortedPerm.eq_of_pairwise (fun x y _ _ xy yx => ?_) (pairwise_insertionSort _ left)
    (pairwise_insertionSort _ right)
  have equal : lexKey x = lexKey y := le_antisymm xy yx
  exact Prod.ext (congrArg (fun z : String ×ₗ (String ×ₗ String) => (ofLex z).1) equal)
    (congrArg (fun z : String ×ₗ (String ×ₗ String) => ofLex (ofLex z).2) equal)

/-- The order of the keys is that of the rows, whose keys are distinct. -/
theorem Sql.list_eq_sort {sql : Sql} (nodup : (AssocMap.keys sql).Nodup) :
    sql.list = Redis.sort (sql.map fun row => (row.1.1, row.1.2, row.2)) := by
  refine map_insertionSort _ _ _ sql fun x xMem y yMem => ?_
  have sameKey (kind : x.1.1 = y.1.1) (id : x.1.2 = y.1.2) : x.2 ≤ y.2 :=
    le_of_eq (congrArg Prod.snd (inj_on_of_nodup_map nodup xMem yMem (Prod.ext kind id)))
  rw [Redis.lexKey, Redis.lexKey, Prod.Lex.toLex_le_toLex, Prod.Lex.toLex_le_toLex,
    Prod.Lex.toLex_le_toLex, le_iff_lt_or_eq]
  exact or_congr_right (and_congr_right fun kind =>
    or_congr_right ⟨fun id => ⟨id, sameKey kind id⟩, fun both => both.1⟩)

/-- Lists of the same rows are the same. -/
theorem list_eq_of_mem_iff {redis : Redis} {sql : Sql} (redisNodup : (AssocMap.keys redis).Nodup)
    (sqlNodup : (AssocMap.keys sql).Nodup) (same : ∀ row, row ∈ redis.list ↔ row ∈ sql.list) :
    redis.list = sql.list := by
  have listedNodup : ((AssocMap.keys redis).filterMap redis.listed).Nodup := by
    refine List.Nodup.filterMap (fun k k' row here there => ?_) redisNodup
    rcases row with ⟨kind, id, eff⟩
    have first := (redis.listed_eq_some_iff k kind id eff).mp here
    have second := (redis.listed_eq_some_iff k' kind id eff).mp there
    rw [first.2.1, second.2.1]
  have rowInjective : Function.Injective fun row : Entry => (row.1.1, row.1.2, row.2) := by
    rintro ⟨⟨kind, id⟩, eff⟩ ⟨⟨kind', id'⟩, eff'⟩ equal
    cases equal
    rfl
  have rowsNodup : (sql.map fun row => (row.1.1, row.1.2, row.2)).Nodup :=
    sqlNodup.of_map.map rowInjective
  rw [Sql.list_eq_sort sqlNodup] at same ⊢
  exact Redis.sort_eq_of_perm ((perm_ext_iff_of_nodup listedNodup rowsNodup).mpr fun row =>
    Redis.mem_sort.symm.trans ((same row).trans Redis.mem_sort))

/-- Redis and SQL answer alike exactly when no kind and no id has a colon. -/
theorem redis_sql_agree_iff (inserts : List Entry) :
    ((∀ kind id instant, (redisOf inserts).isRevoked kind id instant =
        (sqlOf inserts).isRevoked kind id instant) ∧
      (redisOf inserts).list = (sqlOf inserts).list) ↔
      ∀ entry ∈ inserts, ':' ∉ entry.1.1.toList ∧ ':' ∉ entry.1.2.toList := by
  have redisNodup : (AssocMap.keys (redisOf inserts)).Nodup :=
    redisOf_eq_ofPairs inserts ▸ AssocMap.nodup_keys_ofPairs _
  have sqlNodup : (AssocMap.keys (sqlOf inserts)).Nodup := AssocMap.nodup_keys_ofPairs inserts
  constructor
  · rintro ⟨answers, lists⟩
    have plainKind {kind id : String} (member : (kind, id) ∈ AssocMap.keys (sqlOf inserts)) :
        ':' ∉ kind.toList := by
      rcases (AssocMap.mem_keys_iff _ _).mp member with ⟨eff, known⟩
      have row := (Sql.mem_list_iff sqlNodup kind id eff).mpr known
      rw [← lists, Redis.mem_list_iff] at row
      exact row.1
    rintro ⟨⟨kind, id⟩, effectiveAt⟩ member
    have inserted : (kind, id) ∈ AssocMap.keys (sqlOf inserts) := by
      rw [sqlOf_eq_ofPairs, mem_keys_ofPairs_iff]
      exact mem_map_of_mem member
    refine ⟨plainKind inserted, fun colon => ?_⟩
    -- a colon in the id is another place to cut the key
    cases split : splitOnce ':' id.toList with
    | none => exact (splitOnce_eq_none_iff _ _).mp split colon
    | some parts =>
      rcases eq_append_of_splitOnce split with ⟨shape, _⟩
      have sameKey : Redis.key (.ofList (kind.toList ++ ':' :: parts.1)) (.ofList parts.2) =
          Redis.key kind id := by
        apply toList_injective
        simp [Redis.toList_key, shape]
      have known : Redis.key kind id ∈ AssocMap.keys (redisOf inserts) := by
        rw [redisOf_eq_ofPairs, mem_keys_ofPairs_iff, AssocMap.keys, map_map]
        exact mem_map.mpr ⟨((kind, id), effectiveAt), member, rfl⟩
      rcases (AssocMap.mem_keys_iff _ _).mp known with ⟨eff, kept⟩
      have answer := answers (.ofList (kind.toList ++ ':' :: parts.1)) (.ofList parts.2) eff
      rw [Redis.isRevoked, sameKey, kept, Option.any_some, decide_eq_true le_rfl] at answer
      rcases (Option.any_eq_true _ _).mp answer.symm with ⟨other, found, _⟩
      exact plainKind ((AssocMap.mem_keys_iff _ _).mpr ⟨other, found⟩) (by simp)
  · intro plain
    have same (kind id : String) : AssocMap.get? (Redis.key kind id) (redisOf inserts) =
        AssocMap.get? (kind, id) (sqlOf inserts) := by
      have apart : ∀ target ∈ AssocMap.keys inserts.reverse,
          Redis.key target.1 target.2 = Redis.key kind id → target = (kind, id) := by
        intro target member equal
        rcases mem_map.mp member with ⟨entry, listed, here⟩
        rcases plain entry (mem_reverse.mp listed) with ⟨plainKind, plainId⟩
        rw [here] at plainKind plainId
        rcases Redis.key_inj plainKind plainId equal.symm with ⟨sameKind, sameId⟩
        exact Prod.ext sameKind.symm sameId.symm
      rw [redisOf_eq_ofPairs, sqlOf_eq_ofPairs, AssocMap.get?_ofPairs, AssocMap.get?_ofPairs,
        ← map_reverse]
      exact AssocMap.get?_mapKeys
        (fun target : String × String => Redis.key target.1 target.2) (kind, id) apart
    refine ⟨fun kind id instant => ?_, list_eq_of_mem_iff redisNodup sqlNodup ?_⟩
    · rw [Redis.isRevoked, Sql.isRevoked, same]
    · rintro ⟨kind, id, eff⟩
      rw [Redis.mem_list_iff, Sql.mem_list_iff sqlNodup, same, and_iff_right_iff_imp]
      intro known
      have inserted := (AssocMap.mem_keys_iff _ _).mpr ⟨eff, known⟩
      rw [sqlOf_eq_ofPairs, mem_keys_ofPairs_iff] at inserted
      rcases mem_map.mp inserted with ⟨entry, member, here⟩
      have kindPlain := (plain entry member).1
      rwa [here] at kindPlain

theorem redis_sql_disagree :
    let inserts : List Entry := [(("actor", "tf:actor:a"), "2026-01-01")]
    (redisOf inserts).isRevoked "actor:tf" "actor:a" "2026-06-01" = true ∧
      (sqlOf inserts).isRevoked "actor:tf" "actor:a" "2026-06-01" = false := by
  decide +kernel

end TrustForge.RevocationCache
