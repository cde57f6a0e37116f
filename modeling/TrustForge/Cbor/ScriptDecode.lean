import TrustForge.Cbor.Script

/-!
# The TypeScript decoder reads the syntax of CBOR

The decoder of `cbor.ts` refines the reader for items in which an indefinite-length
string takes no level of its own: it returns the JavaScript value for the value of the
item, or throws a `CborError` with the reader's failure as its message.
-/

namespace TrustForge.Cbor.Script

open Program Reader Nat
open Cursor (Follows)
open Format (Exact ExactStep untilStop)

/-! ## Values of both languages -/

/-- An integer as the decoder represents it. -/
def ofInteger (i : Int) : JsValue :=
  if -2 ^ 53 ≤ i ∧ i < 2 ^ 53 then .number (.ofInt i) else .bigint i

def ofNumeric (n : Nat) : Numeric :=
  if n ≤ maxSafeInteger then .number n else .bigint n

mutual

/-- The JavaScript value that is built where Rust builds a `Value`. -/
def toScript : Value → JsValue
  | .integer i => ofInteger i
  | .bytes b => .uint8Array b
  | .text t => .string (stripBom t)
  | .array items => .array (toScriptItems items)
  | .map entries => buildMap (toScriptEntries entries)
  | .tag tag inner => .tag (ofNumeric tag.toNat) (toScript inner)
  | .bool b => .bool b
  | .null => .null
  | .float bits => .number (.ofBits bits)

def toScriptItems : List Value → List JsValue
  | [] => []
  | item :: items => toScript item :: toScriptItems items

def toScriptEntries : List (Value × Value) → List (JsValue × JsValue)
  | [] => []
  | (key, value) :: entries => (toScript key, toScript value) :: toScriptEntries entries

end

theorem toScriptItems_eq_map (items : List Value) : toScriptItems items = items.map toScript :=
  Nested.eq_map rfl (fun _ _ => rfl)

theorem toScriptEntries_eq_map (entries : List (Value × Value)) :
    toScriptEntries entries = entries.map fun entry => (toScript entry.1, toScript entry.2) :=
  Nested.eq_map rfl (fun _ _ => rfl)

/-- The message thrown for a failure. -/
def message : CborError → String
  | .tooDeep => "nesting exceeds depth limit"
  | e => e.text

def ThrowsFor (thrown : Thrown) (e : CborError) : Prop :=
  thrown = .cborError (message e)

/-- From the same place the decoder and the reader get related results. -/
abbrev Simulates {α β : Type} (buf : Bytes) (Q : α → β → Prop) (p : ReadM α)
    (q : Parser β) : Prop :=
  Refines (Follows buf) ThrowsFor Q p q

variable {buf : Bytes} {α β γ : Type}

variable {Q : α → β → Prop}

theorem simulates_raise {text : String} {e : CborError} (same : text = message e) :
    Simulates buf Q (raise text) (throw e) :=
  refines_throw (congrArg Thrown.cborError same)

theorem error_agrees {text : String} {e : CborError} (same : text = message e) :
    Agrees (Follows buf) ThrowsFor Q (.error (.cborError text)) (.error e) :=
  .error (congrArg Thrown.cborError same)

/-! ## Big-endian numbers -/

/-- Bits below a shifted number are added to it. -/
theorem shift_or {high low k : Nat} (small : low < 2 ^ k) :
    high <<< k ||| low = high * 2 ^ k + low := by
  rw [← shiftLeft_add_eq_or_of_lt small, shiftLeft_eq]

theorem shortOf_eq_decode {b : Bytes} (length : b.length = 2) :
    shortOf b = BigEndian.decode b := by
  rcases List.length_eq_two.mp length with ⟨first, second, rfl⟩
  show first.toNat <<< 8 ||| second.toNat = (0 * 256 + first.toNat) * 256 + second.toNat
  rw [shift_or second.toNat_lt]
  omega

theorem longOf_eq_decode (b : Bytes) : longOf b = BigEndian.decode b := by
  have step : (fun (v : Nat) (byte : UInt8) => v <<< 8 ||| byte.toNat) =
      fun v byte => v * 256 + byte.toNat := by
    funext v byte
    exact shift_or byte.toNat_lt
  rw [longOf, step]
  rfl

/-- A byte shifted inside 32 bits. -/
theorem toNat_shift_byte (b : UInt8) {k : Nat} (small : k ≤ 24) :
    (b.toUInt32 <<< UInt32.ofNat k).toNat = b.toNat * 2 ^ k := by
  have below := b.toNat_lt
  have power : 2 ^ k ≤ 2 ^ 24 := Nat.pow_le_pow_right (by decide) small
  have product : b.toNat * 2 ^ k < 2 ^ 32 :=
    calc b.toNat * 2 ^ k ≤ b.toNat * 2 ^ 24 := Nat.mul_le_mul_left _ power
      _ < 2 ^ 32 := by omega
  have amount : (UInt32.ofNat k).toNat % 32 = k := by
    rw [UInt32.toNat_ofNat']
    omega
  rw [UInt32.toNat_shiftLeft, amount, UInt8.toNat_toUInt32, shiftLeft_eq,
    mod_eq_of_lt product]

theorem wordOf_eq_decode {b : Bytes} (length : b.length = 4) :
    wordOf b = BigEndian.decode b := by
  match b, length with
  | [first, second, third, fourth], _ =>
    have a := first.toNat_lt
    have b := second.toNat_lt
    have c := third.toNat_lt
    have d := fourth.toNat_lt
    have top := toNat_shift_byte first (k := 24) (by decide)
    have upper := toNat_shift_byte second (k := 16) (by decide)
    have lower := toNat_shift_byte third (k := 8) (by decide)
    have two : first.toNat * 2 ^ 24 ||| second.toNat * 2 ^ 16 =
        (first.toNat * 256 + second.toNat) <<< 16 := by
      rw [← shiftLeft_eq first.toNat, shift_or (by omega), shiftLeft_eq]
      omega
    have three : (first.toNat * 256 + second.toNat) <<< 16 ||| third.toNat * 2 ^ 8 =
        ((first.toNat * 256 + second.toNat) * 256 + third.toNat) <<< 8 := by
      rw [shift_or (by omega), shiftLeft_eq]
      omega
    show (first.toUInt32 <<< UInt32.ofNat 24 ||| second.toUInt32 <<< UInt32.ofNat 16 |||
        third.toUInt32 <<< UInt32.ofNat 8 ||| fourth.toUInt32).toNat =
      (((0 * 256 + first.toNat) * 256 + second.toNat) * 256 + third.toNat) * 256 + fourth.toNat
    rw [UInt32.toNat_or, UInt32.toNat_or, UInt32.toNat_or, top, upper, lower,
      UInt8.toNat_toUInt32, two, three, shift_or d]
    omega

/-! ## Bytes -/

theorem simulates_byte : Simulates buf (· = ·) byte nextByte := by
  intro r input follows
  rw [byte, get_bind_apply]
  cases input with
  | nil =>
    rw [follows.nil]
    exact error_agrees rfl
  | cons first rest =>
    rcases follows.cons with ⟨here, _, next⟩
    rw [here]
    exact .ok rfl next

theorem simulates_take (n : Nat) : Simulates buf (· = ·) (take n) (takeExact n) := by
  intro r input follows
  have length := follows.length_left
  have inside := follows.inside
  rw [take, get_bind_apply]
  by_cases enough : n ≤ input.length
  · rw [if_neg (by omega), takeExact, if_pos enough, follows.left]
    exact .ok rfl (follows.drop enough)
  · rw [if_pos (by omega), takeExact, if_neg enough]
    exact error_agrees rfl

/-- A number computed from as many bytes as its width. -/
theorem simulates_number {width : Nat} {f : Bytes → γ} {g : Nat → γ}
    (value : ∀ b : Bytes, b.length = width → f b = g (BigEndian.decode b)) :
    Simulates buf (fun x n => x = g (Fin.val n)) (f <$> take width) (readNumber width) := by
  intro r input follows
  rw [readNumber, map_eq_pure_bind, map_eq_pure_bind]
  apply (simulates_take width r input follows).bind
  rintro bytes r' other input' _ taken rfl next
  have length := ((exact_takeExact width _ _ _).mp taken).1
  refine .ok ?_ next
  show f bytes = g (BigEndian.decode bytes % 256 ^ width)
  rw [← length, mod_eq_of_lt (BigEndian.decode_lt bytes), value bytes length]

/-! ## Header arguments -/

theorem number_eq_ofNumeric {n : Nat} (small : n ≤ maxSafeInteger) :
    Numeric.number n = ofNumeric n :=
  (if_pos small).symm

/-- A header argument below the safe integers. -/
theorem simulates_wideArg (width : Width) (narrow : 256 ^ width.size ≤ maxSafeInteger)
    {f : Bytes → Nat} (value : ∀ b : Bytes, b.length = width.size → f b = BigEndian.decode b) :
    Simulates buf (fun a arg => a = ofNumeric (Arg.value arg))
      ((fun b => Numeric.number (f b)) <$> take width.size)
      (Arg.wide width <$> readNumber width.size) := by
  apply refines_map_right
    (simulates_number (g := Numeric.number) fun b length => congrArg Numeric.number (value b length))
  rintro _ n rfl
  exact number_eq_ofNumeric (le_trans (le_of_lt n.isLt) narrow)

theorem simulates_arg (info : UInt8) :
    Simulates buf (fun a arg => a = ofNumeric (Arg.value arg)) (arg info)
      (readArg info.toNat) := by
  unfold arg
  by_cases direct : info.toNat < 24
  · rw [if_pos direct, readArg, dif_pos direct]
    apply refines_pure
    exact number_eq_ofNumeric (le_trans (le_of_lt direct) (by decide))
  · rw [if_neg direct]
    split
    case h_1 code =>
      rw [code]
      show Simulates buf _ _ (Arg.wide .one <$> readNumber 1)
      rw [readNumber_one]
      apply refines_map (Q := fun b n => UInt8.toNat b = Fin.val n)
      · exact refines_map_right simulates_byte fun b c related =>
          congrArg UInt8.toNat related
      · intro b n related
        rw [related]
        exact number_eq_ofNumeric (le_trans (le_of_lt n.isLt) (by decide))
    case h_2 code =>
      exact code ▸ simulates_wideArg .two (by decide) fun b length => shortOf_eq_decode length
    case h_3 code =>
      exact code ▸ simulates_wideArg .four (by decide) fun b length => wordOf_eq_decode length
    case h_4 code =>
      rw [code]
      show Simulates buf _ ((fun b => ofNumeric (longOf b)) <$> take 8)
        (Arg.wide .eight <$> readNumber 8)
      apply refines_map_right
        (simulates_number (g := ofNumeric) fun b _ => congrArg ofNumeric (longOf_eq_decode b))
      rintro _ n rfl
      rfl
    case h_5 one two four eight =>
      rw [readArg_of_reserved direct one two four eight]
      exact simulates_raise rfl

/-! ## Strings -/

section

variable (fits : buf.length ≤ maxSafeInteger)

include fits

/-- A `bigint` is longer than any input that is left. -/
theorem argAsLen_bind_apply {r : Reader} {input : Bytes} (follows : Follows buf r input)
    (n perItemBytes : Nat) (f : Nat → ReadM α) :
    (argAsLen (ofNumeric n) perItemBytes >>= f) r =
      if n ≤ input.length / perItemBytes then f n r
      else .error (.cborError (message .truncated)) := by
  have length := follows.length_left
  have total : r.buf.length ≤ maxSafeInteger := follows.same ▸ fits
  have quotient := div_le_self input.length perItemBytes
  rw [argAsLen, bind_assoc, get_bind_apply, ← follows.length_left, ofNumeric]
  by_cases safe : n ≤ maxSafeInteger
  · rw [if_pos safe]
    by_cases enough : n ≤ input.length / perItemBytes
    · rw [if_pos enough]
      simp [if_neg (not_lt.mpr enough)]
    · rw [if_neg enough]
      simp only [if_pos (not_le.mp enough)]
      rfl
  · rw [if_neg safe, if_neg (by omega)]
    rfl

theorem simulates_payload (arg : Arg) :
    Simulates buf (fun bytes chunk => bytes = Chunk.payload chunk)
      (argAsLen (ofNumeric arg.value) 1 >>= take) (readPayload arg) := by
  intro r input follows
  rw [argAsLen_bind_apply fits follows, readPayload, Nat.div_one]
  by_cases enough : arg.value ≤ input.length
  · have taken := simulates_take arg.value r input follows
    rw [takeExact, if_pos enough] at taken
    rw [if_pos enough, dif_pos enough]
    generalize take arg.value r = outcome at taken ⊢
    cases taken with
    | ok same next => exact .ok same next
  · rw [if_neg enough, dif_neg enough]
    exact error_agrees rfl

theorem simulates_definiteString (info : UInt8) :
    Simulates buf (fun bytes chunk => bytes = Chunk.payload chunk) (definiteString info)
      (readChunk info.toNat) := by
  apply refines_bind (simulates_arg info)
  rintro _ arg rfl
  exact simulates_payload fits arg

omit fits in
theorem simulates_loop {step : ReadM (Option α)} {step' : Parser (Option β)}
    (steps : Simulates buf (Option.Rel Q) step step')
    (decreasing : ∀ input b rest, step' input = .ok (some b, rest) → rest.length < input.length) :
    Simulates buf (List.Forall₂ Q) (loop step) (untilStop (throw .truncated) step') := by
  intro r input follows
  rw [loop, get_bind_apply, ← follows.length_left]
  exact agrees_collect _ _ List.length steps decreasing _ r input follows
    (lt_succ_self _)

theorem simulates_indefiniteString {major : Nat} (isString : major < 7) :
    Simulates buf (fun bytes s => bytes = Str.content s) (decodeIndefiniteString major)
      (Str.indefinite <$> untilStop (throw .truncated) (chunkStep major)) := by
  rw [map_eq_pure_bind]
  apply refines_bind (Q := List.Forall₂ fun bytes chunk => bytes = Chunk.payload chunk)
  · apply simulates_loop
    · apply refines_bind simulates_byte
      rintro initial _ rfl
      apply refines_ite Iff.rfl
      · intro _
        exact refines_pure .none
      · intro _
        apply refines_ite Iff.rfl
        · intro _
          exact simulates_raise rfl
        · intro _
          exact refines_map (simulates_definiteString fits _) fun _ _ same => .some same
    · intro input chunk rest read
      exact (exactStep_chunkStep isString).decreasing (by simp) read
  · intro parts chunks related
    apply refines_pure
    rw [Str.content, List.flatMap_def]
    congr 1
    exact List.forall₂_eq_eq_eq ▸ List.forall₂_map_right_iff.mpr related

theorem simulates_string (height : Nat) {major : Nat} (isString : major < 7) (info : UInt8) :
    Simulates buf (fun bytes s => bytes = Str.content s) (stringBytes major info)
      (readStr 0 height major info.toNat) := by
  apply refines_ite (info_eq_break_iff info)
  · intro _
    rw [if_neg (not_lt_zero _)]
    exact simulates_indefiniteString fits isString
  · intro _
    exact refines_map_right (simulates_definiteString fits info) fun _ _ same => same

theorem simulates_text (height : Nat) (info : UInt8) :
    Simulates buf (fun j item => j = toScript (Item.value item)) (textValue info)
      (readText 0 height info.toNat) := by
  apply refines_bind (simulates_string fits height (by decide) info)
  rintro _ s rfl
  split
  · rename_i t found
    split
    · rename_i other read
      rw [found, Option.some.injEq] at read
      subst read
      exact refines_pure rfl
    · rename_i unread
      rw [found] at unread
      contradiction
  · rename_i unread
    split
    · rename_i other read
      rw [unread] at read
      contradiction
    · exact simulates_raise rfl

omit fits in
theorem simulates_simpleValue (info : UInt8) :
    Simulates buf (fun j s => j = toScript (Simple.value s)) (simpleValue info)
      (readSimple info.toNat) := by
  unfold simpleValue
  generalize info.toNat = code
  split
  case h_1 | h_2 | h_3 | h_4 => exact refines_pure rfl
  case h_5 =>
    rw [readSimple]
    apply refines_bind simulates_byte
    rintro b _ rfl
    split
    · rename_i small
      rw [dif_neg (by omega)]
      exact simulates_raise rfl
    · rename_i large
      have below := b.toNat_lt
      have exactInteger : -2 ^ 53 ≤ (b.toNat : Int) ∧ (b.toNat : Int) < 2 ^ 53 := by omega
      rw [dif_pos (by omega)]
      apply refines_pure
      rw [Simple.value, toScript, ofInteger, if_pos exactInteger]
  case h_6 =>
    rw [readSimple]
    refine refines_map_right (simulates_number
      (g := fun n => JsValue.number (halfToNumber (.ofNat n))) ?_) ?_
    · intro b length
      rw [shortOf_eq_decode length]
    · rintro _ n rfl
      rfl
  case h_7 =>
    rw [readSimple]
    refine refines_map_right (simulates_number
      (g := fun n => JsValue.number (.ofBits (singleToF64 (.ofNat n)))) fun _ _ => rfl) ?_
    rintro _ n rfl
    rfl
  case h_8 =>
    rw [readSimple]
    refine refines_map_right (simulates_number
      (g := fun n => JsValue.number (.ofBits (.ofNat n))) fun _ _ => rfl) ?_
    rintro _ n rfl
    rfl
  case h_9 => exact simulates_raise rfl
  case h_10 =>
    rw [readSimple_of_reserved (by simp_all)]
    exact simulates_raise rfl

/-! ## Arrays and maps -/

section

variable {Q : α → β → Prop} {element : ReadM α} {element' : Parser β} {Valid : β → Prop}
  {print : β → Bytes} (related : Simulates buf Q element element')
  (exact : Exact element' Valid print)
  (start : ∀ b, Valid b → ∃ byte rest, print b = byte :: rest ∧ byte ≠ 0xff)

include related

omit fits in
theorem simulates_elementStep :
    Simulates buf (Option.Rel Q)
      (do
        let next ← peek
        if next = 0xff then
          let _ ← byte
          pure none
        else some <$> element)
      (elementStep element') := by
  intro r input follows
  rw [peek, bind_assoc, get_bind_apply]
  cases input with
  | nil =>
    rw [follows.nil]
    exact error_agrees rfl
  | cons first rest =>
    rcases follows.cons with ⟨here, _, next⟩
    rw [here, pure_bind, elementStep]
    by_cases isBreak : first = 0xff
    · rw [if_pos isBreak, if_pos isBreak, byte, bind_assoc, get_bind_apply, here]
      exact .ok .none next
    · rw [if_neg isBreak, if_neg isBreak]
      exact refines_map related (fun _ _ same => .some same) r _ follows

include exact start

omit fits in
theorem simulates_whileNotBreak :
    Simulates buf (List.Forall₂ Q) (whileNotBreak element)
      (untilStop (throw .truncated) (elementStep element')) := by
  apply simulates_loop (simulates_elementStep related)
  intro input b rest read
  refine (exactStep_elementStep exact start).decreasing ?_ read
  intro b valid empty
  rcases start b valid with ⟨byte, rest, starts, _⟩
  rw [empty] at starts
  contradiction

theorem simulates_elements (perItemBytes : Nat) (info : UInt8) :
    Simulates buf (fun xs read => List.Forall₂ Q xs (Prod.snd read))
      (elements perItemBytes element info) (readCounted perItemBytes element' info.toNat) := by
  apply refines_ite (info_eq_break_iff info)
  · intro _
    refine refines_map_right (simulates_whileNotBreak related exact start) ?_
    exact fun _ _ same => same
  · intro _
    apply refines_bind (simulates_arg info)
    rintro _ arg rfl
    intro r input follows
    rw [argAsLen_bind_apply fits follows, ensureRoom_bind_apply]
    by_cases room : arg.value ≤ input.length / perItemBytes
    · rw [if_pos room, if_pos room]
      refine refines_map_right (refines_times related arg.value) ?_ r input follows
      exact fun _ _ same => same
    · rw [if_neg room, if_neg room]
      exact error_agrees rfl

end

/-! ## Values -/

omit fits in
theorem toScriptItems_of_forall₂ {values : List JsValue} {items : List Item}
    (related : List.Forall₂ (fun j item => j = toScript (Item.value item)) values items) :
    values = toScriptItems (Item.valueOfItems items) := by
  rw [Item.valueOfItems_eq_map, toScriptItems_eq_map, List.map_map]
  exact List.forall₂_eq_eq_eq ▸ List.forall₂_map_right_iff.mpr related

omit fits in
theorem toScriptEntries_of_forall₂ {values : List (JsValue × JsValue)}
    {entries : List (Item × Item)}
    (related : List.Forall₂
      (fun j entry => j = (toScript (Item.value entry.1), toScript (Item.value entry.2))) values
      entries) : values = toScriptEntries (Item.valueOfEntries entries) := by
  rw [Item.valueOfEntries_eq_map, toScriptEntries_eq_map, List.map_map]
  exact List.forall₂_eq_eq_eq ▸ List.forall₂_map_right_iff.mpr related

omit fits in
theorem integerFrom_ofNumeric (n : Nat) (negative : Bool) :
    integerFrom (ofNumeric n) negative = ofInteger (if negative then -1 - n else n) := by
  unfold integerFrom ofNumeric ofInteger maxSafeInteger
  by_cases safe : n ≤ 2 ^ 53 - 1
  · rw [if_pos safe]
    cases negative with
    | true => exact (if_pos (by simp only [if_true]; omega)).symm
    | false => exact (if_pos (by simp only [Bool.false_eq_true, if_false]; omega)).symm
  · rw [if_neg safe]
    cases negative with
    | true =>
      simp only [if_true]
      rw [if_neg (by omega), if_neg (by omega)]
    | false =>
      simp only [Bool.false_eq_true, if_false]
      rw [if_neg (by omega), if_neg (by omega)]

/-- The decoder returns the JavaScript value for the value of the item. -/
theorem simulates_decodeValue (height depth : Nat) (level : depth + height = maxDepth + 1) :
    Simulates buf (fun j item => j = toScript (Item.value item)) (decodeValue (height + 1) depth)
      (read 0 height) := by
  induction height generalizing depth with
  | zero =>
    rw [decodeValue, if_pos (by omega)]
    exact simulates_raise rfl
  | succ height ih =>
    have inner := ih (depth + 1) (by omega)
    have exact := exact_read 0 height
    rw [decodeValue, if_neg (by omega)]
    apply refines_bind simulates_byte
    rintro initial _ rfl
    have entries : Simulates buf
        (fun j entry => j = (toScript (Item.value (Prod.fst entry)),
          toScript (Item.value (Prod.snd entry))))
        (do
          let k ← decodeValue (height + 1) (depth + 1)
          let v ← decodeValue (height + 1) (depth + 1)
          pure (k, v))
        (readEntry (read 0 height)) := by
      apply refines_bind inner
      rintro _ key rfl
      apply refines_bind inner
      rintro _ item rfl
      exact refines_pure rfl
    have small := major_lt initial
    unfold readBody
    generalize (initial >>> 5).toNat = major at small ⊢
    obtain rfl | rfl | rfl | rfl | rfl | rfl | rfl | rfl :
      major = 0 ∨ major = 1 ∨ major = 2 ∨ major = 3 ∨ major = 4 ∨ major = 5 ∨ major = 6 ∨
        major = 7 := by omega
    · refine refines_map (simulates_arg _) ?_
      rintro _ arg rfl
      exact integerFrom_ofNumeric arg.value false
    · refine refines_map (simulates_arg _) ?_
      rintro _ arg rfl
      exact integerFrom_ofNumeric arg.value true
    · exact refines_map (simulates_string fits height (by decide) _) fun _ _ related =>
        congrArg JsValue.uint8Array related
    · exact simulates_text fits height _
    · exact refines_map
        (simulates_elements fits inner exact (fun item _ => item.encoding_start) 1 _)
        fun _ _ related => congrArg JsValue.array (toScriptItems_of_forall₂ related)
    · exact refines_map
        (simulates_elements fits entries (exact_readEntry exact) (fun entry _ =>
          entry_start entry) 2 _)
        fun _ _ related => congrArg buildMap (toScriptEntries_of_forall₂ related)
    · apply refines_bind (simulates_arg _)
      rintro _ arg rfl
      apply refines_map inner
      rintro _ item rfl
      rw [Item.value, toScript, UInt64.toNat_ofNat', mod_eq_of_lt arg.value_lt]
    · exact refines_map_right (simulates_simpleValue _) fun _ _ same => same

end

/-- The decoder succeeds on what an item that fits is written as. -/
theorem decode_eq_ok_iff (input : Uint8Array) (j : JsValue) :
    decode input = .ok j ↔
      ∃ item rest, Item.Fits 0 (maxDepth + 1) item ∧ input.bytes = item.encoding ++ rest ∧
        j = toScript item.value := by
  have agrees := simulates_decodeValue input.fits (maxDepth + 1) 0 (zero_add _)
    { buf := input.bytes, pos := 0 } input.bytes (Cursor.follows_start _)
  rw [decode]
  constructor
  · intro decoded
    generalize decodeValue _ _ _ = outcome at agrees decoded
    cases found : read 0 (maxDepth + 1) input.bytes with
    | error e =>
      rw [found] at agrees
      cases agrees
      contradiction
    | ok result =>
      rcases result with ⟨item, rest⟩
      rcases (exact_read 0 _ _ _ _).mp found with ⟨itemFits, split⟩
      rw [found] at agrees
      cases agrees with
      | ok same _ =>
        cases decoded
        exact ⟨item, rest, itemFits, split, same⟩
  · rintro ⟨item, rest, itemFits, split, value⟩
    rw [(exact_read 0 _ _ _ _).mpr ⟨itemFits, split⟩] at agrees
    generalize decodeValue _ _ _ = outcome at agrees ⊢
    cases agrees with
    | ok same _ =>
      rw [same, value]
      rfl

end TrustForge.Cbor.Script
