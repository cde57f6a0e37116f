import TrustForge.Json.Canonical

/-!
# Reading canonical text back

`reread` says what the reader makes of the canonical text of a value: strings and
keys are normalised, entries are sorted by key and later ones replace earlier ones of
the same key, numbers are read from their text, and nesting beyond the reader's
budget is refused.  The main theorem is that the reader computes exactly this,
whatever follows the text.  It gives the round trip and the unique parsing of texts
written one after another.
-/

namespace TrustForge.Json

open Option hiding map_map
open AssocMap List
open Text (hexDigit)

/-! ## Strings -/

theorem hexValue_hexDigit (n : Nat) (small : n < 16) : hexValue (hexDigit n) = some n := by
  revert n
  decide

theorem readHex4_control (n : Nat) (small : n < 0x20) (rest : List Char) :
    readHex4 ('0' :: '0' :: hexDigit (n / 16) :: hexDigit (n % 16) :: rest) =
      some (n, rest) := by
  have high := hexValue_hexDigit (n / 16) (by omega)
  have low := hexValue_hexDigit (n % 16) (by omega)
  have zero : hexValue '0' = some 0 := by decide
  simp only [readHex4, zero, high, low, bind_eq_bind, bind_some, some.injEq,
    Prod.mk.injEq, and_true]
  omega

theorem readEscape_control (c : Char) (control : c.toNat < 0x20) (rest : List Char) :
    readEscape ('u' :: '0' :: '0' :: hexDigit (c.toNat / 16) :: hexDigit (c.toNat % 16) :: rest) =
      some (c, rest) := by
  have notTrailing : ¬(0xDC00 ≤ c.toNat ∧ c.toNat ≤ 0xDFFF) := by omega
  have notLeading : ¬(0xD800 ≤ c.toNat ∧ c.toNat ≤ 0xDBFF) := by omega
  simp [readEscape, readUnicodeEscape, readHex4_control c.toNat control, notTrailing, notLeading]

/-- One written character is read back as itself. -/
theorem readString_escapeChar (fuel : Nat) (c : Char) (rest : List Char) :
    readString (fuel + 1) (escapeChar c ++ rest) =
      (readString fuel rest).map fun (chars, rest) => (c :: chars, rest) := by
  obtain ⟨letter, member, written⟩ | ⟨control, written⟩ | ⟨quote, backslash, printable, written⟩ :=
    escapeChar_cases c
  · rw [written]
    simp only [letterEscapes, mem_cons, not_mem_nil, or_false] at member
    rcases member with ⟨rfl, rfl⟩ | ⟨rfl, rfl⟩ | ⟨rfl, rfl⟩ | ⟨rfl, rfl⟩ | ⟨rfl, rfl⟩ | ⟨rfl, rfl⟩ |
      ⟨rfl, rfl⟩
    all_goals rfl
  · rw [written]
    simp [readString, readEscape_control c control]
  · simp [written, readString, quote, backslash, Nat.not_lt.mpr printable]

theorem readString_escaped (chars : List Char) (fuel : Nat) (rest : List Char)
    (enough : (chars.flatMap escapeChar).length < fuel) :
    readString fuel (chars.flatMap escapeChar ++ '"' :: rest) = some (chars, rest) := by
  induction chars generalizing fuel with
  | nil =>
    cases fuel with
    | zero => exact absurd enough (Nat.not_lt_zero _)
    | succ fuel => rfl
  | cons c chars ih =>
    have step := (length_escapeChar c).1
    rw [flatMap_cons, length_append] at enough
    cases fuel with
    | zero => exact absurd enough (Nat.not_lt_zero _)
    | succ fuel =>
      rw [flatMap_cons, append_assoc, readString_escapeChar, ih fuel (by omega)]
      rfl

theorem writeJsonString_injective : Function.Injective writeJsonString := by
  intro s t same
  have bodies := (cons.inj same).2
  have left := readString_escaped s.toList _ [] (Nat.lt_succ_self _)
  have right := readString_escaped t.toList _ [] (Nat.lt_succ_self _)
  have escaped := append_cancel_right bodies
  rw [escaped, right] at left
  exact String.toList_injective (Prod.ext_iff.mp (some.inj left)).1.symm

/-! ## What reading back gives -/

/-- All entries, if every one of them has a value. -/
def collectEntries {β : Type} : List (String × Option β) → Option (List (String × β))
  | [] => some []
  | (key, value) :: rest =>
    value.bind fun v => (collectEntries rest).map fun entries => (key, v) :: entries

namespace Runtime

variable (runtime : Runtime)

mutual

/-- The value the reader finds in canonical text, within a budget of containers. -/
def reread : Nat → Value → Option Value
  | _, .null => some .null
  | _, .bool b => some (.bool b)
  | _, .number n => (readNumber runtime.readF64 (runtime.numeral n).token).map .number
  | _, .string s => some (.string (runtime.nfc s))
  | budget, .array xs => if budget ≤ 1 then none else (rereadAll (budget - 1) xs).map .array
  | budget, .object entries =>
    if budget ≤ 1 then none
    else (collectEntries (sortByKey (rereadEntries (budget - 1) entries))).map fun sorted =>
      .object (AssocMap.ofPairs sorted)

def rereadAll : Nat → List Value → Option (List Value)
  | _, [] => some []
  | budget, x :: xs =>
    (reread budget x).bind fun y => (rereadAll budget xs).map fun ys => y :: ys

def rereadEntries : Nat → List (String × Value) → List (String × Option Value)
  | _, [] => []
  | budget, (k, v) :: rest => (runtime.nfc k, reread budget v) :: rereadEntries budget rest

end

variable (budget : Nat)

theorem rereadEntries_eq_map (entries : List (String × Value)) :
    runtime.rereadEntries budget entries =
      entries.map fun entry => (runtime.nfc entry.1, runtime.reread budget entry.2) :=
  Nested.eq_map rfl (fun _ _ => rfl)

/-- The entries of an object as `encode` walks them: keys normalised, then sorted. -/
def sortedEntries (entries : List (String × Value)) : List (String × Value) :=
  sortByKey (entries.map fun entry => (runtime.nfc entry.1, entry.2))

theorem mem_of_mem_sortedEntries {entries : List (String × Value)} {key : String} {v : Value}
    (member : (key, v) ∈ runtime.sortedEntries entries) :
    ∃ original, (original, v) ∈ entries := by
  rw [sortedEntries, (sortByKey_perm _).mem_iff] at member
  rcases mem_map.mp member with ⟨⟨original, value⟩, listed, equal⟩
  simp only [Prod.mk.injEq] at equal
  rcases equal with ⟨_, equal⟩
  subst equal
  exact ⟨original, listed⟩

theorem encode_object (entries : List (String × Value)) :
    runtime.encode (.object entries) =
      '{' :: (commaSeparated ((runtime.sortedEntries entries).map fun entry =>
        memberText (entry.1, runtime.encode entry.2)) ++ ['}']) := by
  have sorted := sortByKey_map runtime.encode
    (entries.map fun entry => (runtime.nfc entry.1, entry.2))
  rw [map_map] at sorted
  rw [encode, encodeEntries_eq_map]
  simp only [Function.comp_def] at sorted
  rw [sorted, map_map]
  rfl

theorem reread_object (entries : List (String × Value)) :
    runtime.reread budget (.object entries) =
      if budget ≤ 1 then none
      else (collectEntries ((runtime.sortedEntries entries).map fun entry =>
        (entry.1, runtime.reread (budget - 1) entry.2))).map fun sorted =>
          .object (AssocMap.ofPairs sorted) := by
  have sorted := sortByKey_map (runtime.reread (budget - 1))
    (entries.map fun entry => (runtime.nfc entry.1, entry.2))
  rw [map_map] at sorted
  simp only [Function.comp_def] at sorted
  rw [reread, rereadEntries_eq_map, sorted]
  rfl

/-! ## The reader on canonical text -/

theorem skipSpace_cons (c : Char) (rest : List Char) (solid : isSpace c = false) :
    skipSpace (c :: rest) = c :: rest := by
  simp [skipSpace, solid]

/-- The reader gets `result` from the text, whatever follows it. -/
def Reads (text : List Char) (result : Option Value) : Prop :=
  ∀ fuel rest, text.length ≤ fuel → EndsNumber rest →
    readValue runtime.readF64 fuel budget (text ++ rest) = result.map fun v => (v, rest)

theorem endsNumber_of_head {c : Char} (rest : List Char)
    (head : c.isDigit = false ∧ c ≠ '.' ∧ c ≠ 'e' ∧ c ≠ 'E') : EndsNumber (c :: rest) := by
  intro other equal
  simp only [head?_cons, some.injEq] at equal
  subst equal
  exact head

theorem endsNumber_nil : EndsNumber [] := by
  intro c head
  contradiction

/-- The elements of an array, given that each element reads back. -/
theorem readElements_commaSeparated (x : Value) (xs : List Value)
    (each : ∀ y ∈ x :: xs, runtime.Reads budget (runtime.encode y) (runtime.reread budget y))
    (fuel : Nat) (rest : List Char)
    (enough : (commaSeparated ((x :: xs).map runtime.encode)).length < fuel) :
    readElements runtime.readF64 fuel budget
        (commaSeparated ((x :: xs).map runtime.encode) ++ ']' :: rest) =
      (runtime.rereadAll budget (x :: xs)).map fun ys => (ys, rest) := by
  induction xs generalizing x fuel with
  | nil =>
    cases fuel with
    | zero => exact absurd enough (Nat.not_lt_zero _)
    | succ fuel =>
      simp only [map_cons, map_nil, commaSeparated] at enough ⊢
      have first := each x mem_cons_self fuel (']' :: rest) (by omega)
        (endsNumber_of_head rest (by decide))
      simp only [readElements, first, rereadAll]
      cases runtime.reread budget x with
      | none | some => rfl
  | cons next xs ih =>
    cases fuel with
    | zero => exact absurd enough (Nat.not_lt_zero _)
    | succ fuel =>
      have later := ih next (fun y member => each y (mem_cons_of_mem x member)) fuel
      simp only [map_cons, commaSeparated, length_append, length_cons,
        append_assoc, cons_append] at enough later ⊢
      have first := each x mem_cons_self fuel
        (',' :: (commaSeparated (runtime.encode next :: xs.map runtime.encode) ++ ']' :: rest))
        (by omega) (endsNumber_of_head _ (by decide))
      rw [readElements, first, rereadAll]
      cases runtime.reread budget x with
      | none => rfl
      | some y =>
        simp only [map_some, bind_eq_bind, bind_some,
          skipSpace_cons ',' _ rfl, later (by omega), Option.map_map]
        rfl

/-- One entry of an object, given that its value reads back. -/
theorem readMembers_memberText (key : String) (v : Value)
    (reads : runtime.Reads budget (runtime.encode v) (runtime.reread budget v))
    (fuel : Nat) (tail : List Char) (ends : EndsNumber tail)
    (enough : (memberText (key, runtime.encode v)).length ≤ fuel) :
    readMembers runtime.readF64 (fuel + 1) budget
        (memberText (key, runtime.encode v) ++ tail) =
      (runtime.reread budget v).bind fun w =>
        match skipSpace tail with
        | ',' :: rest => (readMembers runtime.readF64 fuel budget rest).map
            fun (entries, rest) => ((key, w) :: entries, rest)
        | '}' :: rest => some ([(key, w)], rest)
        | _ => none := by
  simp only [memberText, writeJsonString, length_append, length_cons, cons_append,
    append_assoc, nil_append] at enough ⊢
  have name := readString_escaped key.toList fuel (':' :: (runtime.encode v ++ tail)) (by omega)
  have value := reads fuel tail (by omega) ends
  simp only [readMembers, skipSpace_cons '"' _ rfl, name, bind_eq_bind, bind_some,
    skipSpace_cons ':' _ rfl, value, String.ofList_toList]
  cases runtime.reread budget v with
  | none | some => rfl

/-- The entries of an object, given that each value reads back. -/
theorem readMembers_commaSeparated (member : String × Value) (members : List (String × Value))
    (each : ∀ entry ∈ member :: members,
      runtime.Reads budget (runtime.encode entry.2) (runtime.reread budget entry.2))
    (fuel : Nat) (rest : List Char)
    (enough : (commaSeparated ((member :: members).map fun entry =>
      memberText (entry.1, runtime.encode entry.2))).length < fuel) :
    readMembers runtime.readF64 fuel budget
        (commaSeparated ((member :: members).map fun entry =>
          memberText (entry.1, runtime.encode entry.2)) ++ '}' :: rest) =
      (collectEntries ((member :: members).map fun entry =>
        (entry.1, runtime.reread budget entry.2))).map fun entries => (entries, rest) := by
  induction members generalizing member fuel with
  | nil =>
    cases fuel with
    | zero => exact absurd enough (Nat.not_lt_zero _)
    | succ fuel =>
      simp only [map_cons, map_nil, commaSeparated] at enough ⊢
      rw [readMembers_memberText runtime budget member.1 member.2
        (each member mem_cons_self) fuel _ (endsNumber_of_head rest (by decide))
        (by omega), collectEntries]
      cases runtime.reread budget member.2 with
      | none | some => rfl
  | cons next members ih =>
    cases fuel with
    | zero => exact absurd enough (Nat.not_lt_zero _)
    | succ fuel =>
      have later := ih next (fun entry listed => each entry (mem_cons_of_mem _ listed))
        fuel
      simp only [map_cons, commaSeparated, length_append, length_cons,
        append_assoc, cons_append] at enough later ⊢
      rw [readMembers_memberText runtime budget member.1 member.2
        (each member mem_cons_self) fuel _ (endsNumber_of_head _ (by decide))
        (by omega), collectEntries]
      cases runtime.reread budget member.2 with
      | none => rfl
      | some w =>
        simp only [bind_some, skipSpace_cons ',' _ rfl, later (by omega), Option.map_map]
        rfl

/-! ## Containers -/

/-- A joined text starts like its first part. -/
theorem exists_commaSeparated_cons (c : Char) (part : List Char) (parts : List (List Char)) :
    ∃ text, commaSeparated ((c :: part) :: parts) = c :: text := by
  cases parts with
  | nil => exact ⟨part, rfl⟩
  | cons next parts => exact ⟨part ++ ',' :: commaSeparated (next :: parts), rfl⟩

theorem reads_array (xs : List Value) (budget : Nat)
    (each : ∀ x ∈ xs,
      runtime.Reads (budget - 1) (runtime.encode x) (runtime.reread (budget - 1) x)) :
    runtime.Reads budget (runtime.encode (.array xs)) (runtime.reread budget (.array xs)) := by
  intro fuel rest enough _
  rw [encode, encodeAll_eq_map] at enough ⊢
  rw [reread]
  cases fuel with
  | zero => exact absurd enough (Nat.not_succ_le_zero _)
  | succ fuel =>
    simp only [cons_append, append_assoc, nil_append, readValue,
      skipSpace_cons '[' _ rfl, Char.reduceEq]
    by_cases exhausted : budget ≤ 1
    · simp [exhausted]
    · simp only [exhausted, ↓reduceIte]
      cases xs with
      | nil => rfl
      | cons x xs =>
        simp only [length_cons, length_append] at enough
        have elements := runtime.readElements_commaSeparated (budget - 1) x xs each fuel rest
          (by omega)
        rcases runtime.encode_startsValue x with ⟨c, first, starts, solid, notBracket⟩
        rcases exists_commaSeparated_cons c first (xs.map runtime.encode) with ⟨text, equal⟩
        rw [map_cons, starts, equal, cons_append] at elements ⊢
        rw [skipSpace_cons c _ solid]
        split
        · next bracket =>
          simp only [cons.injEq] at bracket
          exact absurd bracket.1 notBracket
        · rw [elements, Option.map_map, Option.map_map]
          rfl

theorem reads_object (entries : List (String × Value)) (budget : Nat)
    (each : ∀ entry ∈ entries,
      runtime.Reads (budget - 1) (runtime.encode entry.2) (runtime.reread (budget - 1) entry.2)) :
    runtime.Reads budget (runtime.encode (.object entries))
      (runtime.reread budget (.object entries)) := by
  intro fuel rest enough _
  have eachSorted : ∀ entry ∈ runtime.sortedEntries entries,
      runtime.Reads (budget - 1) (runtime.encode entry.2)
        (runtime.reread (budget - 1) entry.2) := by
    intro entry member
    rcases runtime.mem_of_mem_sortedEntries member with ⟨original, listed⟩
    exact each (original, entry.2) listed
  rw [encode_object] at enough ⊢
  rw [reread_object]
  cases fuel with
  | zero => exact absurd enough (Nat.not_succ_le_zero _)
  | succ fuel =>
    simp only [cons_append, append_assoc, nil_append, readValue,
      skipSpace_cons '{' _ rfl, Char.reduceEq]
    by_cases exhausted : budget ≤ 1
    · simp [exhausted]
    · simp only [exhausted, ↓reduceIte]
      cases sorted : runtime.sortedEntries entries with
      | nil => rfl
      | cons member members =>
        rw [sorted] at enough eachSorted
        simp only [length_cons, length_append] at enough
        have read := runtime.readMembers_commaSeparated (budget - 1) member members
          eachSorted fuel rest (by omega)
        rcases exists_commaSeparated_cons '"'
          (member.1.toList.flatMap escapeChar ++ ['"'] ++ ':' :: runtime.encode member.2)
          (members.map fun entry => memberText (entry.1, runtime.encode entry.2))
          with ⟨text, equal⟩
        have starts : memberText (member.1, runtime.encode member.2) =
            '"' :: (member.1.toList.flatMap escapeChar ++ ['"'] ++
              ':' :: runtime.encode member.2) := rfl
        rw [map_cons, starts, equal, cons_append] at read ⊢
        rw [skipSpace_cons '"' _ rfl]
        split
        · next brace => simp at brace
        · rw [read, Option.map_map, Option.map_map]
          rfl

/-! ## The round trip -/

theorem reads_number (n : Number) (budget : Nat) :
    runtime.Reads budget (runtime.encode (.number n)) (runtime.reread budget (.number n)) := by
  intro fuel rest enough ends
  have scanned := scanNumber_text (runtime.numeral n) ends
  rcases (runtime.numeral n).exists_head with ⟨c, text, equal, starts⟩
  rw [encode, equal] at enough ⊢
  rw [equal, cons_append] at scanned
  cases fuel with
  | zero => exact absurd enough (Nat.not_succ_le_zero _)
  | succ fuel =>
    have notLiteral (other : Char) := ne_of_startsNumber starts other
    simp only [cons_append, readValue, skipSpace_cons c _ (isSpace_of_startsNumber starts),
      notLiteral 'n' (by decide) (by decide), notLiteral 't' (by decide) (by decide),
      notLiteral 'f' (by decide) (by decide), notLiteral '"' (by decide) (by decide),
      notLiteral '[' (by decide) (by decide), notLiteral '{' (by decide) (by decide), scanned,
      bind_eq_bind, bind_some, reread]
    cases readNumber runtime.readF64 (runtime.numeral n).token with
    | none | some => rfl

/-- The reader makes `reread` of the canonical text of a value. -/
theorem reads_encode (v : Value) (budget : Nat) :
    runtime.Reads budget (runtime.encode v) (runtime.reread budget v) := by
  induction v using Value.memberInduction generalizing budget with
  | null =>
    intro fuel rest enough _
    cases fuel with
    | zero => exact absurd enough (Nat.not_succ_le_zero _)
    | succ fuel => rfl
  | bool b =>
    intro fuel rest enough _
    cases b <;> cases fuel with
    | zero => exact absurd enough (Nat.not_succ_le_zero _)
    | succ fuel => rfl
  | number n => exact runtime.reads_number n budget
  | string s =>
    intro fuel rest enough _
    simp only [encode, writeJsonString, length_cons, length_append] at enough
    cases fuel with
    | zero => exact absurd enough (Nat.not_succ_le_zero _)
    | succ fuel =>
      have chars := readString_escaped (runtime.nfc s).toList fuel rest (by omega)
      simp [encode, writeJsonString, readValue, skipSpace_cons '"' _ rfl, chars, reread]
  | array xs ih =>
    exact runtime.reads_array xs budget fun x member => ih x member (budget - 1)
  | object entries ih =>
    exact runtime.reads_object entries budget fun entry member => ih entry member (budget - 1)

/-- Reading canonical text from a string. -/
theorem fromStr_canonicalize (v : Value) :
    fromStr runtime.readF64 (runtime.canonicalize v) = runtime.reread recursionLimit v := by
  have read := runtime.reads_encode v recursionLimit ((runtime.encode v).length + 1) []
    (Nat.le_succ _) endsNumber_nil
  rw [append_nil] at read
  simp only [fromStr, canonicalize, String.toList_ofList, read]
  cases runtime.reread recursionLimit v with
  | none | some => rfl

/-- Reading canonical text from its bytes. -/
theorem fromSlice_canonicalize (v : Value) :
    fromSlice runtime.readF64 (Text.utf8 (runtime.canonicalize v)) =
      runtime.reread recursionLimit v := by
  rw [fromSlice, Text.ofUtf8?_utf8, bind_some, fromStr_canonicalize]

variable {budget : Nat}

/-- Canonical texts followed by more text are parsed in one way. -/
theorem encode_append_inj {v w x : Value} {left right : List Char}
    (equal : runtime.encode v ++ left = runtime.encode w ++ right) (leftEnds : EndsNumber left)
    (rightEnds : EndsNumber right) (readable : runtime.reread budget v = some x) :
    runtime.reread budget w = some x ∧ left = right := by
  have fromLeft := runtime.reads_encode v budget
    ((runtime.encode v).length + (runtime.encode w).length) left (by omega) leftEnds
  have fromRight := runtime.reads_encode w budget
    ((runtime.encode v).length + (runtime.encode w).length) right (by omega) rightEnds
  rw [equal, fromRight, readable, map_some, map_eq_some_iff] at fromLeft
  rcases fromLeft with ⟨y, readW, pair⟩
  simp only [Prod.mk.injEq] at pair
  rcases pair with ⟨sameValue, sameRest⟩
  subst sameValue
  exact ⟨readW, sameRest.symm⟩

/-- Arrays within arrays, one more than the number. -/
def nestedArrays : Nat → Value
  | 0 => .array []
  | n + 1 => .array [nestedArrays n]

/-- The reader gives up on arrays that nest deeper than its budget. -/
theorem reread_nestedArrays (n budget : Nat) (deep : budget ≤ n + 1) :
    runtime.reread budget (nestedArrays n) = none := by
  induction n generalizing budget with
  | zero => rw [nestedArrays, reread, if_pos deep]
  | succ n ih =>
    rw [nestedArrays, reread]
    split
    · rfl
    · rw [rereadAll, ih (budget - 1) (by omega)]
      rfl

/-! ## Objects with plain keys

The objects the code builds have distinct ASCII keys.  Normalisation and sorting do
not touch those, so reading back can be followed key by key. -/

theorem collectEntries_eq_some_iff {β : Type} {entries : List (String × Option β)}
    {collected : List (String × β)} :
    collectEntries entries = some collected ↔
      entries = collected.map fun entry => (entry.1, some entry.2) := by
  induction entries generalizing collected with
  | nil => cases collected <;> simp [collectEntries]
  | cons entry rest ih =>
    rcases entry with ⟨key, value⟩
    cases collected with
    | nil => simp [collectEntries, bind_eq_some_iff]
    | cons first more =>
      rcases first with ⟨k, v⟩
      simp only [collectEntries, bind_eq_some_iff, map_eq_some_iff, ih,
        map_cons, cons.injEq, Prod.mk.injEq]
      constructor
      · rintro ⟨w, rfl, others, later, ⟨rfl, rfl⟩, rfl⟩
        exact ⟨⟨rfl, rfl⟩, later⟩
      · rintro ⟨⟨rfl, rfl⟩, later⟩
        exact ⟨v, rfl, more, later, ⟨rfl, rfl⟩, rfl⟩

theorem keys_collectEntries {β : Type} {entries : List (String × Option β)}
    {collected : List (String × β)} (all : collectEntries entries = some collected) :
    keys collected = keys entries := by
  rw [collectEntries_eq_some_iff.mp all, AssocMap.keys, AssocMap.keys, map_map]
  rfl

theorem get?_collectEntries {β : Type} {entries : List (String × Option β)}
    {collected : List (String × β)} (all : collectEntries entries = some collected)
    (key : String) : get? key collected = (get? key entries).bind id := by
  rw [collectEntries_eq_some_iff.mp all, get?_map]
  cases get? key collected <;> rfl

theorem collectEntries_isSome_iff {β : Type} (entries : List (String × Option β)) :
    (collectEntries entries).isSome = true ↔ ∀ entry ∈ entries, entry.2.isSome = true := by
  induction entries with
  | nil => simp [collectEntries]
  | cons entry rest ih =>
    rcases entry with ⟨key, value⟩
    cases value with
    | none => simp [collectEntries]
    | some v => simpa [collectEntries] using ih

/-- Distinct ASCII keys. -/
def PlainKeys (keys : List String) : Prop :=
  keys.Nodup ∧ ∀ key ∈ keys, Text.IsAscii key

instance (keys : List String) : Decidable (PlainKeys keys) :=
  inferInstanceAs (Decidable (_ ∧ _))

theorem PlainKeys.sublist {keys full : List String} (plain : PlainKeys full)
    (part : keys.Sublist full) : PlainKeys keys :=
  ⟨plain.1.sublist part, fun key member => plain.2 key (part.subset member)⟩

variable {entries : List (String × Value)}

theorem sortedEntries_perm (plain : PlainKeys (keys entries)) :
    (runtime.sortedEntries entries).Perm entries := by
  have unchanged : (entries.map fun entry => (runtime.nfc entry.1, entry.2)) = entries := by
    conv_rhs => rw [← map_id entries]
    apply map_congr_left
    intro entry member
    rw [runtime.nfc_ascii entry.1 (plain.2 entry.1 (mem_map_of_mem member))]
    rfl
  have sorted := sortByKey_perm (entries.map fun entry => (runtime.nfc entry.1, entry.2))
  rw [unchanged] at sorted
  rwa [sortedEntries, unchanged]

theorem mem_sortedEntries_of_mem {key : String} {v : Value}
    (member : (key, v) ∈ entries) : (runtime.nfc key, v) ∈ runtime.sortedEntries entries := by
  rw [sortedEntries, (sortByKey_perm _).mem_iff]
  exact mem_map.mpr ⟨(key, v), member, rfl⟩

/-- With room for the object itself, it is read back when all its values are. -/
theorem reread_object_isSome_iff (entries : List (String × Value)) (room : 1 < budget) :
    (runtime.reread budget (.object entries)).isSome = true ↔
      ∀ entry ∈ entries, (runtime.reread (budget - 1) entry.2).isSome = true := by
  rw [reread_object, if_neg (not_le_of_gt room), isSome_map, collectEntries_isSome_iff]
  constructor
  · intro all entry member
    exact all _ (mem_map_of_mem (runtime.mem_sortedEntries_of_mem member))
  · intro each entry member
    rcases mem_map.mp member with ⟨source, listed, equal⟩
    subst equal
    rcases runtime.mem_of_mem_sortedEntries listed with ⟨original, inEntries⟩
    exact each (original, source.2) inEntries

/-- The float reader understands every number text the writer can produce. -/
def ReadsNumbers : Prop :=
  ∀ n, (readNumber runtime.readF64 (runtime.numeral n).token).isSome = true

theorem rereadAll_isSome_iff (budget : Nat) (xs : List Value) :
    (runtime.rereadAll budget xs).isSome = true ↔
      ∀ x ∈ xs, (runtime.reread budget x).isSome = true := by
  induction xs with
  | nil => simp [rereadAll]
  | cons x xs ih =>
    rw [rereadAll, forall_mem_cons, ← ih]
    cases runtime.reread budget x <;> simp

/-- Values are read back unless they nest too deeply or have a float that the float
reader refuses. -/
theorem isSome_reread_of (v : Value) (budget : Nat)
    (readable : runtime.ReadsNumbers ∨ v.floatFree = true) (shallow : v.depth < budget) :
    (runtime.reread budget v).isSome = true := by
  induction v using Value.memberInduction generalizing budget with
  | null | bool => rfl
  | number n =>
    rw [reread, isSome_map]
    rcases readable with reads | free
    · exact reads n
    · cases n with
      | posInt value => simp [numeral, readNumber_posInt]
      | negInt value => simp [numeral, readNumber_negInt]
      | float f => simp [Value.floatFree] at free
  | string _ => rfl
  | array xs ih =>
    obtain ⟨room, each⟩ := (Value.depth_array_lt_iff xs budget).mp shallow
    rw [Value.floatFree_array_iff] at readable
    rw [reread, if_neg (Nat.not_le.mpr room), isSome_map, rereadAll_isSome_iff]
    intro x member
    exact ih x member _ (readable.imp_right fun free => free x member) (each x member)
  | object entries ih =>
    obtain ⟨room, each⟩ := (Value.depth_object_lt_iff entries budget).mp shallow
    rw [Value.floatFree_object_iff] at readable
    rw [reread_object_isSome_iff runtime entries room]
    intro entry member
    exact ih entry member _ (readable.imp_right fun free => free entry member)
      (each entry member)

theorem exists_object_of_reread {w : Value}
    (read : runtime.reread budget (.object entries) = some w) : ∃ others, w = .object others := by
  rw [reread_object, ite_none_left_eq_some, map_eq_some_iff] at read
  rcases read with ⟨_, collected, _, equal⟩
  exact ⟨_, equal.symm⟩

/-- Reading back an object with plain keys reads back the value under each key. -/
theorem get?_of_reread_object {w : Value} (plain : PlainKeys (keys entries))
    (read : runtime.reread budget (.object entries) = some w) (key : String) :
    w.get? key = (get? key entries).bind (runtime.reread (budget - 1)) := by
  have perm := runtime.sortedEntries_perm plain
  rw [reread_object, ite_none_left_eq_some, map_eq_some_iff] at read
  rcases read with ⟨_, collected, all, equal⟩
  subst equal
  have nodup : (keys (runtime.sortedEntries entries)).Nodup :=
    (perm.map Prod.fst).nodup_iff.mpr plain.1
  have sameKeys : keys collected = keys (runtime.sortedEntries entries) := by
    rw [keys_collectEntries all]
    simp [AssocMap.keys]
  rw [Value.get?, ofPairs_of_nodup collected (sameKeys ▸ nodup),
    get?_collectEntries all, get?_map, get?_perm _ _ perm nodup]
  cases get? key entries with
  | none | some => rfl

end Runtime

end TrustForge.Json
