import TrustForge.Cbor.Decoder
import TrustForge.Cbor.Read

/-!
# The decoder reads the syntax of CBOR

The decoder of `cbor.rs` refines the reader for items in which an indefinite-length
string takes a level: it returns the value of the item, at the position after it, or
fails with the reader's error.  No hazard is related to an error of the reader, so the
decoder runs into none.
-/

namespace TrustForge.Cbor

open Program UInt64 Nat List
open Format (Exact ExactStep untilStop)
open Cursor (Follows)

namespace Decoder

/-- The same failure on both sides. -/
def FailsWith (stop : Stop) (e : CborError) : Prop :=
  stop = .error e

/-- From the same place the decoder and the reader get related results. -/
abbrev Simulates {α β : Type} (buf : Bytes) (Q : α → β → Prop) (p : DecodeM α)
    (q : Parser β) : Prop :=
  Refines (Follows buf) FailsWith Q p q

variable {buf : Bytes} {α β : Type}

variable {Q : α → β → Prop}

theorem simulates_fail (e : CborError) : Simulates buf Q (fail e) (throw e) :=
  refines_throw rfl

section

variable (fits : buf.length < 2 ^ 63)

include fits

variable {d : Decoder} {input : Bytes}

theorem pos_lt (follows : Follows buf d input) : d.pos < 2 ^ 63 := by
  have inside := follows.inside
  rw [follows.same] at inside
  omega

/-- Adding one to a position before the end cannot overflow. -/
theorem usizeAdd_one (follows : Follows buf d input) : usizeAdd d.pos 1 = pure (d.pos + 1) := by
  have small := pos_lt fits follows
  exact if_pos (by omega)

/-! ## Bytes -/

theorem simulates_byte : Simulates buf (· = ·) byte nextByte := by
  intro d input follows
  rw [byte, get_bind_apply]
  cases input with
  | nil =>
    rw [follows.nil]
    exact .error rfl
  | cons first rest =>
    rcases follows.cons with ⟨here, _, next⟩
    rw [here]
    simp only [usizeAdd_one fits follows]
    exact .ok rfl next

theorem simulates_take (n : Nat) : Simulates buf (· = ·) (take n) (takeExact n) := by
  intro d input follows
  have length := follows.length_left
  have inside := follows.inside
  have small := pos_lt fits follows
  have total : d.buf.length < 2 ^ 63 := follows.same ▸ fits
  rw [take, get_bind_apply]
  by_cases enough : n ≤ input.length
  · rw [if_neg (by omega), if_neg (by omega), takeExact, if_pos enough, slice,
      if_pos ⟨Nat.le_add_right _ _, by omega⟩, Nat.add_sub_cancel_left, follows.left]
    exact .ok rfl (follows.drop enough)
  · rw [takeExact, if_neg enough]
    split
    · exact .error rfl
    · rw [if_pos (by omega)]
      exact .error rfl

theorem simulates_number (width : Nat) :
    Simulates buf (fun n m => n = m.val) (take width >>= fromBeBytes width) (readNumber width) := by
  intro d input follows
  rw [readNumber, map_eq_pure_bind]
  apply (simulates_take fits width d input follows).bind
  rintro bytes d' other input' _ taken rfl next
  have length := ((exact_takeExact width _ _ _).mp taken).1
  rw [fromBeBytes, if_pos length]
  refine .ok ?_ next
  show BigEndian.decode bytes = BigEndian.decode bytes % 256 ^ width
  rw [← length, mod_eq_of_lt (BigEndian.decode_lt bytes)]

/-- A single byte is a number of width one. -/
theorem simulates_byte_number :
    Simulates buf (fun b n => b.toNat = n.val) byte (readNumber 1) := by
  rw [readNumber_one]
  exact refines_map_right (simulates_byte fits) fun b c related =>
    congrArg UInt8.toNat related

theorem simulates_wideArg (width : Width) :
    Simulates buf (fun a arg => a.toNat = Arg.value arg)
      (UInt64.ofNat <$> (take width.size >>= fromBeBytes width.size))
      (Arg.wide width <$> readNumber width.size) := by
  apply refines_map (simulates_number fits width.size)
  rintro _ n rfl
  rw [toNat_ofNat', mod_eq_of_lt (lt_of_lt_of_le n.isLt width.pow_size_le)]
  rfl

theorem simulates_arg (info : UInt8) :
    Simulates buf (fun a arg => a.toNat = arg.value) (arg info) (readArg info.toNat) := by
  unfold arg readArg
  split
  · rename_i direct
    apply refines_pure
    rw [toNat_ofNat', mod_eq_of_lt (lt_trans direct (by decide))]
    rfl
  · split
    case h_1 code =>
      rw [code]
      apply refines_map (simulates_byte_number fits)
      intro b n related
      rw [toNat_ofNat', mod_eq_of_lt (lt_trans b.toNat_lt (by decide)), related]
      rfl
    case h_2 code => exact code ▸ simulates_wideArg fits .two
    case h_3 code => exact code ▸ simulates_wideArg fits .four
    case h_4 code => exact code ▸ simulates_wideArg fits .eight
    case h_5 one two four eight =>
      have none : Width.ofInfo? info.toNat = none := by
        unfold Width.ofInfo?
        split <;> first | contradiction | rfl
      rw [none]
      exact simulates_fail _

/-! ## Strings -/

omit fits in
/-- `arg_as_len` subtracts a position inside the buffer. -/
theorem argAsLen_bind_apply (follows : Follows buf d input) (a : UInt64) (f : Nat → DecodeM α) :
    (argAsLen a >>= f) d =
      if input.length < a.toNat then .error (.error .truncated) else f a.toNat d := by
  rw [argAsLen, bind_assoc, get_bind_apply, usizeSub, if_pos follows.inside, ← follows.length_left]
  simp only [pure_bind]
  split
  · rfl
  · rfl

theorem simulates_payload {a : UInt64} {arg : Arg} (related : a.toNat = arg.value) :
    Simulates buf (fun bytes chunk => bytes = chunk.payload) (argAsLen a >>= take)
      (readPayload arg) := by
  intro d input follows
  rw [argAsLen_bind_apply follows, readPayload]
  by_cases enough : arg.value ≤ input.length
  · have taken := simulates_take fits arg.value d input follows
    rw [takeExact, if_pos enough] at taken
    rw [if_neg (by omega), dif_pos enough, related]
    generalize take arg.value d = outcome at taken ⊢
    cases taken with
    | ok same next => exact .ok same next
  · rw [if_pos (by omega), dif_neg enough]
    exact .error rfl

theorem simulates_definiteString (info : UInt8) :
    Simulates buf (fun bytes chunk => bytes = chunk.payload) (definiteString info)
      (readChunk info.toNat) := by
  apply refines_bind (simulates_arg fits info)
  intro a arg related
  exact simulates_payload fits related

omit fits in
theorem simulates_loop {step : DecodeM (Option α)} {step' : Parser (Option β)}
    (steps : Simulates buf (Option.Rel Q) step step')
    (decreasing : ∀ input b rest, step' input = .ok (some b, rest) → rest.length < input.length) :
    Simulates buf (List.Forall₂ Q) (loop step) (untilStop (throw .truncated) step') := by
  intro d input follows
  rw [loop, get_bind_apply, ← follows.length_left]
  exact agrees_collect _ _ List.length steps decreasing _ d input follows
    (lt_succ_self _)

variable {depth height : Nat}

theorem simulates_indefiniteString (level : depth + height = maxDepth) {major : Nat}
    (isString : major < 7) :
    Simulates buf (fun bytes s => bytes = Str.content s) (indefiniteString depth major)
      (if height < 1 then throw .tooDeep
        else Str.indefinite <$> untilStop (throw .truncated) (chunkStep major)) := by
  unfold indefiniteString
  apply refines_ite
  · omega
  · intro _
    exact simulates_fail _
  · intro _
    rw [map_eq_pure_bind]
    apply refines_bind (Q := List.Forall₂ fun bytes chunk => bytes = Chunk.payload chunk)
    · apply simulates_loop
      · apply refines_bind (simulates_byte fits)
        rintro initial _ rfl
        apply refines_ite Iff.rfl
        · intro _
          exact refines_pure .none
        · intro _
          apply refines_ite Iff.rfl
          · intro _
            exact simulates_fail _
          · intro _
            exact refines_map (simulates_definiteString fits _) fun _ _ same => .some same
      · intro input chunk rest read
        exact (exactStep_chunkStep isString).decreasing (by simp) read
    · intro parts chunks related
      apply refines_pure
      rw [Str.content, flatMap_def]
      congr 1
      exact forall₂_eq_eq_eq ▸ forall₂_map_right_iff.mpr related

theorem simulates_string (level : depth + height = maxDepth) {major : Nat} (isString : major < 7)
    (info : UInt8) :
    Simulates buf (fun bytes s => bytes = Str.content s) (stringBytes depth major info)
      (readStr 1 height major info.toNat) := by
  apply refines_ite (info_eq_break_iff info)
  · intro _
    exact simulates_indefiniteString fits level isString
  · intro _
    exact refines_map_right (simulates_definiteString fits info) fun _ _ same => same

theorem simulates_text (level : depth + height = maxDepth) (info : UInt8) :
    Simulates buf (fun v item => v = Item.value item) (textValue depth info)
      (readText 1 height info.toNat) := by
  apply refines_bind (simulates_string fits level (by decide) info)
  rintro _ s rfl
  split
  · rename_i t found
    split
    · rename_i other read
      rw [found, Option.some.injEq] at read
      subst read
      exact refines_pure rfl
    · rename_i unread
      rw [found] at unread
      contradiction
  · rename_i unread
    split
    · rename_i other read
      rw [unread] at read
      contradiction
    · exact simulates_fail _

/-! ## Simple values -/

theorem simulates_simpleValue (info : UInt8) :
    Simulates buf (fun v s => v = Simple.value s) (simpleValue info) (readSimple info.toNat) := by
  unfold simpleValue
  generalize info.toNat = code
  split
  case h_1 | h_2 | h_3 | h_4 => exact refines_pure rfl
  case h_5 =>
    rw [readSimple]
    apply refines_bind (simulates_byte fits)
    rintro b _ rfl
    split
    · rename_i small
      rw [dif_neg (by omega)]
      exact simulates_fail _
    · rename_i large
      rw [dif_pos (by omega)]
      exact refines_pure rfl
  case h_6 =>
    rw [readSimple]
    apply refines_map (simulates_number fits 2)
    rintro _ n rfl
    rfl
  case h_7 =>
    rw [readSimple]
    apply refines_map (simulates_number fits 4)
    rintro _ n rfl
    rfl
  case h_8 =>
    rw [readSimple]
    apply refines_map (simulates_number fits 8)
    rintro _ n rfl
    rfl
  case h_9 => exact simulates_fail _
  case h_10 =>
    rw [readSimple_of_reserved (by simp_all)]
    exact simulates_fail _

/-! ## Arrays and maps -/

theorem simulates_elementStep {element : DecodeM α} {element' : Parser β}
    (elements : Simulates buf Q element element') :
    Simulates buf (Option.Rel Q)
      (do
        let ended ← atBreak
        if ended then pure none else some <$> element)
      (elementStep element') := by
  intro d input follows
  rw [atBreak, bind_assoc, get_bind_apply]
  cases input with
  | nil =>
    rw [follows.nil]
    exact .error rfl
  | cons first rest =>
    rcases follows.cons with ⟨here, _, next⟩
    rw [here]
    by_cases isBreak : first = 0xff
    · simp only [isBreak, usizeAdd_one fits follows]
      exact .ok .none next
    · simp only [isBreak, elementStep]
      exact refines_map elements (fun _ _ related => .some related) d _ follows

omit fits in
theorem withCapacity_bind_apply (follows : Follows buf d input) {count : Nat}
    (room : count ≤ input.length) (f : DecodeM α) :
    (withCapacity count >>= fun _ => f) d = f d := by
  rw [follows.length_left] at room
  rw [withCapacity, bind_assoc, get_bind_apply, if_pos room, pure_bind]

theorem simulates_definiteItems {element : DecodeM α} {element' : Parser β}
    (elements : Simulates buf Q element element') (info : UInt8) :
    Simulates buf (fun xs read => List.Forall₂ Q xs (Prod.snd read)) (definiteItems element info)
      (do
        let arg ← readArg info.toNat
        ensureRoom 1 arg.value
        (fun ys => (some arg, ys)) <$> times element' arg.value) := by
  apply refines_bind (simulates_arg fits info)
  intro a arg related d input follows
  rw [argAsLen_bind_apply follows, ensureRoom_bind_apply, Nat.div_one, related]
  by_cases room : arg.value ≤ input.length
  · rw [if_neg (by omega), if_pos room, withCapacity_bind_apply follows room]
    refine refines_map_right (refines_times elements arg.value) ?_ d input follows
    exact fun _ _ same => same
  · rw [if_pos (by omega), if_neg room]
    exact .error rfl

theorem simulates_definiteEntries {entry : DecodeM α} {entry' : Parser β}
    (entries : Simulates buf Q entry entry') (info : UInt8) :
    Simulates buf (fun xs read => List.Forall₂ Q xs (Prod.snd read)) (definiteEntries entry info)
      (do
        let arg ← readArg info.toNat
        ensureRoom 2 arg.value
        (fun ys => (some arg, ys)) <$> times entry' arg.value) := by
  apply refines_bind (simulates_arg fits info)
  intro a arg related d input follows
  rw [get_bind_apply, usizeSub, if_pos follows.inside, ← follows.length_left,
    ensureRoom_bind_apply, related, pure_bind]
  by_cases room : arg.value ≤ input.length / 2
  · rw [if_neg (by omega), if_pos room, withCapacity_bind_apply follows (by omega)]
    refine refines_map_right (refines_times entries arg.value) ?_ d input follows
    exact fun _ _ same => same
  · rw [if_pos (by omega), if_neg room]
    exact .error rfl

section

variable {Q : α → β → Prop} {element : DecodeM α} {element' : Parser β} {Valid : β → Prop}
  {print : β → Bytes} (elements : Simulates buf Q element element')
  (exact : Exact element' Valid print)
  (start : ∀ b, Valid b → ∃ byte rest, print b = byte :: rest ∧ byte ≠ 0xff)

include elements exact start

/-- Elements up to a break; every element uses up input. -/
theorem simulates_whileNotBreak :
    Simulates buf (List.Forall₂ Q) (whileNotBreak element)
      (untilStop (throw .truncated) (elementStep element')) := by
  apply simulates_loop (simulates_elementStep fits elements)
  intro input b rest read
  refine (exactStep_elementStep exact start).decreasing ?_ read
  intro b valid empty
  rcases start b valid with ⟨byte, rest, starts, _⟩
  rw [empty] at starts
  contradiction

theorem simulates_arrayItems (info : UInt8) :
    Simulates buf (fun xs read => List.Forall₂ Q xs (Prod.snd read)) (arrayItems element info)
      (readCounted 1 element' info.toNat) := by
  apply refines_ite (info_eq_break_iff info)
  · intro _
    refine refines_map_right (simulates_whileNotBreak fits elements exact start) ?_
    exact fun _ _ same => same
  · intro _
    exact simulates_definiteItems fits elements info

theorem simulates_mapEntries (info : UInt8) :
    Simulates buf (fun xs read => List.Forall₂ Q xs (Prod.snd read)) (mapEntries element info)
      (readCounted 2 element' info.toNat) := by
  apply refines_ite (info_eq_break_iff info)
  · intro _
    refine refines_map_right (simulates_whileNotBreak fits elements exact start) ?_
    exact fun _ _ same => same
  · intro _
    exact simulates_definiteEntries fits elements info

end

/-! ## Values -/

omit fits in
theorem valueOfItems_of_forall₂ {values : List Value} {items : List Item}
    (related : List.Forall₂ (fun v item => v = Item.value item) values items) :
    values = Item.valueOfItems items := by
  rw [Item.valueOfItems_eq_map]
  exact forall₂_eq_eq_eq ▸ forall₂_map_right_iff.mpr related

omit fits in
theorem valueOfEntries_of_forall₂ {values : List (Value × Value)} {entries : List (Item × Item)}
    (related : List.Forall₂ (fun v entry => v = (Item.value entry.1, Item.value entry.2)) values
      entries) : values = Item.valueOfEntries entries := by
  rw [Item.valueOfEntries_eq_map]
  exact forall₂_eq_eq_eq ▸ forall₂_map_right_iff.mpr related

/-- The decoder returns the value of the item that the reader finds. -/
theorem simulates_value (height depth : Nat) (level : depth + height = maxDepth + 1) :
    Simulates buf (fun v item => v = Item.value item) (value (height + 1) depth)
      (read 1 height) := by
  induction height generalizing depth with
  | zero =>
    rw [value, if_pos (by omega)]
    exact simulates_fail _
  | succ height ih =>
    have inner := ih (depth + 1) (by omega)
    have exact := exact_read 1 height
    have here : depth + height = maxDepth := by omega
    rw [value, if_neg (by omega)]
    apply refines_bind (simulates_byte fits)
    rintro initial _ rfl
    have entries : Simulates buf
        (fun v entry => v = (Item.value (Prod.fst entry), Item.value (Prod.snd entry)))
        (do
          let k ← value (height + 1) (depth + 1)
          let v ← value (height + 1) (depth + 1)
          pure (k, v))
        (readEntry (read 1 height)) := by
      apply refines_bind inner
      rintro _ key rfl
      apply refines_bind inner
      rintro _ item rfl
      exact refines_pure rfl
    have small := major_lt initial
    unfold readBody
    generalize (initial >>> 5).toNat = major at small ⊢
    obtain rfl | rfl | rfl | rfl | rfl | rfl | rfl | rfl :
      major = 0 ∨ major = 1 ∨ major = 2 ∨ major = 3 ∨ major = 4 ∨ major = 5 ∨ major = 6 ∨
        major = 7 := by omega
    · exact refines_map (simulates_arg fits _) fun a arg related =>
        congrArg (fun n : Nat => Value.integer n) related
    · exact refines_map (simulates_arg fits _) fun a arg related =>
        congrArg (fun n : Nat => Value.integer (-1 - n)) related
    · exact refines_map (simulates_string fits here (by decide) _) fun _ _ related =>
        congrArg Value.bytes related
    · exact simulates_text fits here _
    · exact refines_map
        (simulates_arrayItems fits inner exact (fun item _ => item.encoding_start) _)
        fun _ _ related => congrArg Value.array (valueOfItems_of_forall₂ related)
    · exact refines_map
        (simulates_mapEntries fits entries (exact_readEntry exact) (fun entry _ =>
          entry_start entry) _)
        fun _ _ related => congrArg Value.map (valueOfEntries_of_forall₂ related)
    · apply refines_bind (simulates_arg fits _)
      intro a arg related
      apply refines_map inner
      rintro _ item rfl
      rw [Item.value, ← related, UInt64.ofNat_toNat]
    · exact refines_map_right (simulates_simpleValue fits _) fun _ _ same => same

end

/-! ## Whole inputs -/

/-- The levels that the depth limit leaves at the top. -/
def topHeight : Nat := maxDepth + 1

theorem run_agrees (fits : buf.length < 2 ^ 63) :
    Agrees (Follows buf) FailsWith (fun v item => v = Item.value item) (run buf)
      (read 1 topHeight buf) :=
  simulates_value fits topHeight 0 (zero_add _) { buf := buf, pos := 0 } buf
    (Cursor.follows_start buf)

end Decoder

/-- A byte slice.  Rust keeps them below `isize::MAX` bytes. -/
structure Slice where
  bytes : Bytes
  fits : bytes.length < 2 ^ 63

variable (input : Slice)

theorem Decoder.run_ne_hazard (h : Hazard) :
    run input.bytes ≠ .error (.hazard h) := by
  intro stopped
  have agrees := run_agrees input.fits
  rw [stopped] at agrees
  generalize read 1 topHeight input.bytes = outcome at agrees
  cases agrees with
  | error same => simp [FailsWith] at same

/-- The decoder succeeds on what an item that fits is written as, and stops after it. -/
theorem Decoder.run_eq_ok_iff (v : Value) (d : Decoder) :
    run input.bytes = .ok (v, d) ↔
      ∃ item rest, Item.Fits 1 topHeight item ∧ input.bytes = item.encoding ++ rest ∧
        v = item.value ∧ d = { buf := input.bytes, pos := item.encoding.length } := by
  have agrees := run_agrees input.fits
  constructor
  · intro ran
    rw [ran] at agrees
    cases found : read 1 topHeight input.bytes with
    | error e =>
      rw [found] at agrees
      cases agrees
    | ok outcome =>
      rcases outcome with ⟨item, rest⟩
      rcases (exact_read 1 topHeight _ _ _).mp found with ⟨itemFits, split⟩
      rw [found] at agrees
      cases agrees with
      | ok value follows => exact ⟨item, rest, itemFits, split, value, follows.eq_of_append split⟩
  · rintro ⟨item, rest, itemFits, split, value, stands⟩
    have found := (exact_read 1 topHeight _ _ _).mpr ⟨itemFits, split⟩
    rw [found] at agrees
    generalize run input.bytes = outcome at agrees ⊢
    cases agrees with
    | ok same follows => rw [same, value, stands, follows.eq_of_append split]

def decode : Except CborError Value :=
  match ended : Decoder.run input.bytes with
  | .ok (v, _) => .ok v
  | .error (.error e) => .error e
  | .error (.hazard h) => absurd ended (Decoder.run_ne_hazard input h)

theorem decode_eq_ok_iff (v : Value) :
    decode input = .ok v ↔
      ∃ item rest, Item.Fits 1 Decoder.topHeight item ∧ input.bytes = item.encoding ++ rest ∧
        v = item.value := by
  have ran := fun d => Decoder.run_eq_ok_iff input v d
  constructor
  · intro decoded
    unfold decode at decoded
    split at decoded
    · rename_i w d ended
      cases decoded
      rcases (ran d).mp ended with ⟨item, rest, fits, split, value, _⟩
      exact ⟨item, rest, fits, split, value⟩
    · contradiction
    · rename_i h ended
      exact absurd ended (Decoder.run_ne_hazard input h)
  · rintro ⟨item, rest, fits, split, value⟩
    have ended := (ran _).mpr ⟨item, rest, fits, split, value, rfl⟩
    unfold decode
    split
    · rename_i w d other
      rw [ended] at other
      cases other
      rfl
    · rename_i e other
      rw [ended] at other
      contradiction
    · rename_i h other
      rw [ended] at other
      contradiction

end TrustForge.Cbor
