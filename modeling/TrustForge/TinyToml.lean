import TrustForge.Foundation.AssocMap
import TrustForge.Foundation.Lines
import TrustForge.Foundation.Result

/-!
# The reader of manifests

Model of `parse_tiny_toml` in `tf_manifests.rs`: a line loses its comment, is cut at the first equals
sign, and its value loses a pair of quotes.
-/

namespace TrustForge.TinyToml

open List Result
open Lines (isWhitespace splitOnce trim)

def lines (raw : List Char) : List (List Char) :=
  let cut := raw.splitOn '\n'
  let ended := cut.dropLast.map fun line =>
    if line.getLast? = some '\r' then line.dropLast else line
  ended ++ (cut.getLast?.filter (· ≠ [])).toList

/-- A slice that ends before it starts. -/
inductive Panic where
  | slice
  deriving DecidableEq

/-- The text starts and ends with the character, which can be one and the same. -/
def Wrapped (quote : Char) (value : List Char) : Prop :=
  value.head? = some quote ∧ value.getLast? = some quote
  deriving Decidable

/-- The value without its quotes, `&value[1..value.len() - 1]`. -/
def unquote (value : List Char) : Except Panic (List Char) :=
  if Wrapped '"' value ∨ Wrapped '\'' value then
    if value.length < 2 then .error .slice else .ok value.tail.dropLast
  else .ok value

/-- The line without its comment. -/
def stripped (line : List Char) : List Char :=
  trim (line.takeWhile (· ≠ '#'))

/-- What a line sets. -/
def setting (line : List Char) : Except Panic (Option (List Char × List Char)) :=
  if stripped line = [] then .ok none
  else
    match splitOnce '=' (stripped line) with
    | none => .ok none
    | some (k, v) => (unquote (trim v)).map fun value => some (trim k, value)

def parseTinyToml (raw : List Char) : Except Panic (List (List Char × List Char)) := do
  let settings ← (lines raw).mapM setting
  return AssocMap.ofPairs (settings.filterMap id)

/-! ## Panics -/

/-- The value of the line is one quote character. -/
def LoneQuote (line : List Char) : Prop :=
  ∃ k v, splitOnce '=' (stripped line) = some (k, v) ∧ (trim v = ['"'] ∨ trim v = ['\''])

theorem unquote_eq_ok_iff (value : List Char) :
    (∃ kept, unquote value = .ok kept) ↔ ¬(value = ['"'] ∨ value = ['\'']) := by
  unfold unquote
  match value with
  | [] => exact iff_of_true ⟨[], rfl⟩ (by simp)
  | [c] => by_cases double : c = '"' <;> by_cases single : c = '\'' <;> simp [Wrapped, double, single]
  | _ :: _ :: rest =>
    have long : ¬rest.length + 2 < 2 := by omega
    simp only [length_cons]
    split <;> simp

theorem setting_eq_ok_iff (line : List Char) :
    (∃ pair, setting line = .ok pair) ↔ ¬LoneQuote line := by
  unfold setting LoneQuote
  by_cases blank : stripped line = []
  · simp [blank, splitOnce]
  · rw [if_neg blank]
    rcases splitOnce '=' (stripped line) with _ | ⟨k, v⟩
    · simp
    · have kept := unquote_eq_ok_iff (trim v)
      cases unquoted : unquote (trim v) <;> simp_all [Except.map]

/-! ## Quoted values -/

theorem unquote_quoted (text : List Char) : unquote ('"' :: (text ++ ['"'])) = .ok text := by
  have wrapped : Wrapped '"' ('"' :: (text ++ ['"'])) := ⟨rfl, List.getLast?_concat (l := '"' :: text)⟩
  rw [unquote, if_pos (.inl wrapped), if_neg (by simp)]
  simp

/-- A line `key = "text"`. -/
def assignment (key text : List Char) : List Char :=
  key ++ [' '] ++ '=' :: (' ' :: '"' :: text ++ ['"'])

theorem setting_assignment {key text : List Char} (trimmed : trim key = key) (plain : '=' ∉ key)
    (bare : '#' ∉ key) (inside : '#' ∉ text) :
    setting (assignment key text) = .ok (some (key, text)) := by
  have whole : (assignment key text).takeWhile (· ≠ '#') = assignment key text := by
    rw [takeWhile_eq_self_iff]
    intro c member
    have other : c ≠ '#' := by
      rintro rfl
      simp [assignment, bare, inside] at member
    simpa using other
  have cut : stripped (assignment key text) =
      (key ++ [' ']).dropWhile isWhitespace ++ '=' :: (' ' :: '"' :: text ++ ['"']) := by
    rw [stripped, whole, assignment]
    exact Lines.trim_append_solid (key ++ [' ']) (' ' :: '"' :: text) rfl rfl
  have before : '=' ∉ (key ++ [' ']).dropWhile isWhitespace := by
    intro member
    have listed := (dropWhile_sublist _).mem member
    simp [plain] at listed
  have value : trim (' ' :: '"' :: text ++ ['"']) = '"' :: (text ++ ['"']) :=
    Lines.trim_append_solid [' '] text rfl rfl
  rw [setting, cut, if_neg (by simp), Lines.splitOnce_append '=' before]
  simp only [value, unquote_quoted, Lines.trim_dropWhile, Lines.trim_concat_space, trimmed, Except.map]

theorem unquote_sublist {value kept : List Char} (ended : unquote value = .ok kept) :
    kept.Sublist value := by
  unfold unquote at ended
  split at ended
  · split at ended
    · contradiction
    · cases ended
      exact (dropLast_sublist _).trans (tail_sublist _)
  · cases ended
    exact List.Sublist.refl _

/-- The comment is cut off before the value is read, so that no value has a comment sign. -/
theorem bare_of_setting {line key value : List Char}
    (set : setting line = .ok (some (key, value))) : '#' ∉ value := by
  unfold setting at set
  split at set
  · cases set
  · split at set
    · cases set
    · next k v cut =>
      intro member
      cases unquoted : unquote (trim v) with
      | error stop => rw [unquoted] at set; cases set
      | ok kept =>
        rw [unquoted] at set
        cases set
        have inside := ((unquote_sublist unquoted).trans (Lines.trim_sublist v)).mem member
        have listed : '#' ∈ stripped line := by
          rw [(Lines.eq_append_of_splitOnce cut).1]
          exact mem_append_right _ (mem_cons_of_mem _ inside)
        have kept := mem_takeWhile_imp ((Lines.trim_sublist _).mem listed)
        exact absurd kept (by decide)

/-! ## The reader -/

/-- The reader panics exactly where some value is one quote character.  Otherwise a line
`key = "text"` sets its key to the text exactly if the text has no comment sign in it. -/
theorem parseTinyToml_faithful (raw : List Char) :
    ((∃ out, parseTinyToml raw = .ok out) ↔ ∀ line ∈ lines raw, ¬LoneQuote line) ∧
      ∀ out before after key text, parseTinyToml raw = .ok out →
        lines raw = before ++ assignment key text :: after →
        trim key = key → '=' ∉ key → '#' ∉ key →
        (∀ later ∈ after, ∀ value, setting later ≠ .ok (some (key, value))) →
          (AssocMap.get? key out = some text ↔ '#' ∉ text) := by
  refine ⟨?_, fun out before after key text read listed trimmed plain bare later => ?_⟩
  · simp only [parseTinyToml, bind_eq_ok_iff, ← setting_eq_ok_iff, ← exists_mapM_eq_ok_iff]
    exact ⟨fun ⟨_, settings, read, _⟩ => ⟨settings, read⟩, fun ⟨settings, read⟩ =>
      ⟨_, settings, read, rfl⟩⟩
  · simp only [parseTinyToml, bind_eq_ok_iff] at read
    obtain ⟨settings, read, made⟩ := read
    cases made
    rw [AssocMap.get?_ofPairs_eq_some_iff]
    constructor
    · rintro ⟨front, back, split, _⟩
      have member : (key, text) ∈ settings.filterMap id :=
        split ▸ mem_append_right front mem_cons_self
      obtain ⟨line, _, set⟩ :=
        exists_of_forall₂ (mapM_eq_ok_iff.mp read) (by simpa using member)
      exact bare_of_setting set
    · intro inside
      simp only [listed, mapM_append, mapM_cons, setting_assignment trimmed plain bare inside,
        bind_eq_ok_iff, pure, Except.pure, Except.ok.injEq] at read
      obtain ⟨front, _, _, ⟨_, rfl, back, read, rfl⟩, rfl⟩ := read
      refine ⟨front.filterMap id, back.filterMap id, by simp, fun set => ?_⟩
      obtain ⟨⟨_, value⟩, member, rfl⟩ := mem_map.mp set
      obtain ⟨line, given, read⟩ :=
        exists_of_forall₂ (mapM_eq_ok_iff.mp read) (by simpa using member)
      exact later line given value read

/-- A value of one quote panics, and a comment sign within quotes cuts the value. -/
theorem tinyToml_faults :
    parseTinyToml "k = \"".toList = .error .slice ∧
      parseTinyToml "k = \"a#b\"".toList = .ok [(['k'], ['"', 'a'])] := by
  decide +kernel

end TrustForge.TinyToml
