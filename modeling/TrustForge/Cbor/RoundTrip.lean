import TrustForge.Cbor.Decode
import TrustForge.Foundation.Result

/-!
# Encoding and decoding

The encoder writes items: the narrowest headers, definite lengths and 8-byte floats.
So what it writes is decoded to the value it was given, up to the depth limit, and what
was decoded can be encoded again.
-/

namespace TrustForge.Cbor

open Arg List Result Except UInt64 Nat

/-! ## Headers -/

theorem shift_or_eq_headByte {major info : Nat} (majorSmall : major < 8) (infoSmall : info < 32) :
    UInt8.ofNat major <<< 5 ||| UInt8.ofNat info = headByte major info := by
  have all : ∀ m : Fin 8, ∀ i : Fin 32,
      UInt8.ofNat m <<< 5 ||| UInt8.ofNat i = headByte m i := by decide
  exact all ⟨major, majorSmall⟩ ⟨info, infoSmall⟩

theorem headByte_wide {major : Nat} (small : major < 8) (width : Width)
    (n : Fin (256 ^ width.size)) :
    (UInt8.ofNat major <<< 5 ||| UInt8.ofNat width.info) :: BigEndian.encode width.size n =
      headByte major (wide width n).info :: (wide width n).tail := by
  rw [shift_or_eq_headByte small (lt_trans width.info_bounds.2 (by decide))]
  rfl

/-- `put_header` writes the narrowest argument. -/
theorem putHeader_eq (major : Nat) (small : major < 8) (n : UInt64) :
    putHeader (.ofNat major) n =
      headByte major (minimal n).info :: (minimal n).tail := by
  have byte : n.toUInt8 = UInt8.ofNat n.toNat := UInt8.toNat_inj.mp (by simp)
  unfold putHeader minimal
  simp only [lt_iff_toNat_lt, le_iff_toNat_le, UInt64.reduceToNat]
  by_cases direct : n.toNat < 24
  · rw [if_pos direct, dif_pos direct, byte,
      shift_or_eq_headByte small (lt_trans direct (by decide))]
    rfl
  rw [if_neg direct, dif_neg direct]
  by_cases one : n.toNat < 256 ^ Width.one.size
  · rw [if_pos (le_of_lt_succ one), dif_pos one, ← headByte_wide small, byte]
    rfl
  rw [if_neg (fun fits => one (lt_succ_of_le fits)), dif_neg one]
  by_cases two : n.toNat < 256 ^ Width.two.size
  · rw [if_pos (le_of_lt_succ two), dif_pos two, ← headByte_wide small,
      toNat_toUInt16, mod_eq_of_lt (show n.toNat < 2 ^ 16 from two)]
    rfl
  rw [if_neg (fun fits => two (lt_succ_of_le fits)), dif_neg two]
  by_cases four : n.toNat < 256 ^ Width.four.size
  · rw [if_pos (le_of_lt_succ four), dif_pos four, ← headByte_wide small,
      toNat_toUInt32, mod_eq_of_lt (show n.toNat < 2 ^ 32 from four)]
    rfl
  · rw [if_neg (fun fits => four (lt_succ_of_le fits)), dif_neg four, ← headByte_wide small]
    rfl

/-! ## What can be encoded -/

mutual

/-- `encode` fails exactly on integers that CBOR cannot express. -/
theorem encodeInto_isOk_iff : (v : Value) →
    ((∃ bytes, encodeInto v = .ok bytes) ↔ ∀ i ∈ v.integers, InRange i)
  | .integer i => by
    simp only [encodeInto, encodeInteger, Value.integers, mem_singleton, forall_eq, InRange]
    split
    · split
      · exact iff_of_true ⟨_, rfl⟩ (by omega)
      · exact iff_of_false (by simp) (by omega)
    · split
      · exact iff_of_true ⟨_, rfl⟩ (by omega)
      · exact iff_of_false (by simp) (by omega)
  | .bytes _ => by simp [encodeInto, Value.integers]
  | .text _ => by simp [encodeInto, Value.integers]
  | .array items => by
    rw [Value.integers, ← encodeItems_isOk_iff items, encodeInto]
    cases encodeItems items <;> simp [bind, Except.bind]
  | .map entries => by
    rw [Value.integers, ← encodeEntries_isOk_iff entries, encodeInto]
    cases encodeEntries entries <;> simp [bind, Except.bind]
  | .tag _ inner => by
    rw [Value.integers, ← encodeInto_isOk_iff inner, encodeInto]
    cases encodeInto inner <;> simp [bind, Except.bind]
  | .bool _ => by simp [encodeInto, Value.integers]
  | .null => by simp [encodeInto, Value.integers]
  | .float _ => by simp [encodeInto, Value.integers]

theorem encodeItems_isOk_iff : (items : List Value) →
    ((∃ bytes, encodeItems items = .ok bytes) ↔ ∀ i ∈ Value.integersOfItems items, InRange i)
  | [] => by simp [encodeItems, Value.integersOfItems]
  | item :: items => by
    rw [Value.integersOfItems, forall_mem_append, ← encodeInto_isOk_iff item,
      ← encodeItems_isOk_iff items, encodeItems]
    cases encodeInto item <;> cases encodeItems items <;> simp [bind, Except.bind]

theorem encodeEntries_isOk_iff : (entries : List (Value × Value)) →
    ((∃ bytes, encodeEntries entries = .ok bytes) ↔
      ∀ i ∈ Value.integersOfEntries entries, InRange i)
  | [] => by simp [encodeEntries, Value.integersOfEntries]
  | (key, value) :: entries => by
    rw [Value.integersOfEntries, forall_mem_append, forall_mem_append, ← encodeInto_isOk_iff key,
      ← encodeInto_isOk_iff value, ← encodeEntries_isOk_iff entries, encodeEntries]
    cases encodeInto key <;> cases encodeInto value <;> cases encodeEntries entries <;>
      simp [bind, Except.bind]

end

/-! ## The encoder writes items -/

/-- Bytes that are the item of a value: it fits where the value is not too deep. -/
def Writes (bytes : Bytes) (v : Value) : Prop :=
  ∃ item : Item, item.encoding = bytes ∧ item.value = v ∧
    ∀ levels height, v.depth < height → item.Fits levels height

/-- The narrowest argument for a length that fits into 64 bits. -/
theorem value_minimal_length {n : Nat} (small : n < 2 ^ 64) :
    (minimal (.ofNat n)).value = n := by
  rw [value_minimal, toNat_ofNat', mod_eq_of_lt small]

/-- An item without items inside fits on any level. -/
theorem fits_of_succ {item : Item} {depth : Nat}
    (here : ∀ levels height, item.Fits levels (height + 1)) (levels height : Nat)
    (deep : depth < height) : item.Fits levels height := by
  cases height with
  | zero => contradiction
  | succ height => exact here levels height

variable {bytes : Bytes}

theorem writes_integer {i : Int} (encoded : encodeInteger i = .ok bytes) :
    Writes bytes (.integer i) := by
  unfold encodeInteger at encoded
  split at encoded
  · split at encoded
    · cases encoded
      refine ⟨.unsigned (minimal (.ofNat i.toNat)),
        (putHeader_eq 0 (by decide) _).symm, ?_, fits_of_succ fun _ _ => trivial⟩
      rw [Item.value, value_minimal_length (by omega), Int.toNat_of_nonneg (by omega)]
    · contradiction
  · dsimp only at encoded
    split at encoded
    · cases encoded
      refine ⟨.negative (minimal (.ofNat (-i - 1).toNat)),
        (putHeader_eq 1 (by decide) _).symm, ?_, fits_of_succ fun _ _ => trivial⟩
      rw [Item.value, value_minimal_length (by omega), Int.toNat_of_nonneg (by omega)]
      congr 1
      omega
    · contradiction

/-- A string in one piece. -/
theorem exists_str (major : Nat) (small : major < 8) (content : Bytes)
    (length : content.length < 2 ^ 64) :
    ∃ s : Str, headByte major s.info :: s.tail major =
        putHeader (.ofNat major) (.ofNat content.length) ++ content ∧ s.content = content ∧
      ∀ levels height, s.Fits levels height := by
  have fits : content.length = (minimal (.ofNat content.length)).value :=
    (value_minimal_length length).symm
  refine ⟨.definite ⟨_, content, fits⟩, ?_, rfl, fun _ _ => trivial⟩
  rw [putHeader_eq major small, cons_append]
  rfl

theorem length_le_bytesOfItems (items : List Item) :
    items.length ≤ (Item.bytesOfItems items).length := by
  induction items with
  | nil => exact le_refl _
  | cons item items ih =>
    rw [Item.bytesOfItems, length_append, length_cons, length_cons]
    omega

theorem length_le_bytesOfEntries (entries : List (Item × Item)) :
    entries.length ≤ (Item.bytesOfEntries entries).length := by
  induction entries with
  | nil => exact le_refl _
  | cons entry entries ih =>
    rcases entry with ⟨key, item⟩
    rw [Item.bytesOfEntries, length_append, length_append, length_cons, length_cons]
    omega

theorem countIs_minimal {n : Nat} (small : n < 2 ^ 64) :
    Item.CountIs (some (minimal (.ofNat n))) n := by
  rintro arg ⟨⟩
  exact (value_minimal_length small).symm

mutual

theorem writes_of_encodeInto : (v : Value) → (bytes : Bytes) → encodeInto v = .ok bytes →
    bytes.length < 2 ^ 64 → Writes bytes v
  | .integer i, bytes, encoded, _ => writes_integer encoded
  | .bytes b, bytes, encoded, short => by
    rw [encodeInto, ok.injEq] at encoded
    subst encoded
    rw [length_append] at short
    rcases exists_str 2 (by decide) b (by omega) with ⟨s, written, content, fits⟩
    refine ⟨.bytes s, ?_, by rw [Item.value, content], fits_of_succ fun levels height =>
      fits levels height⟩
    rw [Item.encoding, Item.tail]
    exact written
  | .text t, bytes, encoded, short => by
    rw [encodeInto, ok.injEq] at encoded
    subst encoded
    rw [length_append] at short
    rcases exists_str 3 (by decide) (Text.utf8 t) (by omega) with
      ⟨s, written, content, fits⟩
    refine ⟨.text s t content.symm, ?_, by rw [Item.value], fits_of_succ fun levels height =>
      fits levels height⟩
    rw [Item.encoding, Item.tail]
    exact written
  | .array items, bytes, encoded, short => by
    rw [encodeInto] at encoded
    rcases bind_eq_ok encoded with ⟨body, encodedBody, done⟩
    cases done
    rw [length_append] at short
    rcases writes_of_encodeItems items body encodedBody (by omega) with
      ⟨written, bytes, values, fits⟩
    have lengths : written.length = items.length := by
      rw [← values, Item.valueOfItems_eq_map, length_map]
    have count := length_le_bytesOfItems written
    rw [bytes, lengths] at count
    refine ⟨.array (some (minimal (.ofNat items.length))) written, ?_, ?_, ?_⟩
    · rw [Item.encoding, Item.tail, bytes]
      exact congrArg (· ++ body) (putHeader_eq 4 (by decide) _).symm
    · rw [Item.value, values]
    · intro levels height deep
      cases height with
      | zero => contradiction
      | succ height =>
        exact ⟨lengths ▸ countIs_minimal (by omega), fits levels height (le_of_lt_succ deep)⟩
  | .map entries, bytes, encoded, short => by
    rw [encodeInto] at encoded
    rcases bind_eq_ok encoded with ⟨body, encodedBody, done⟩
    cases done
    rw [length_append] at short
    rcases writes_of_encodeEntries entries body encodedBody (by omega) with
      ⟨written, bytes, values, fits⟩
    have lengths : written.length = entries.length := by
      rw [← values, Item.valueOfEntries_eq_map, length_map]
    have count := length_le_bytesOfEntries written
    rw [bytes, lengths] at count
    refine ⟨.map (some (minimal (.ofNat entries.length))) written, ?_, ?_, ?_⟩
    · rw [Item.encoding, Item.tail, bytes]
      exact congrArg (· ++ body) (putHeader_eq 5 (by decide) _).symm
    · rw [Item.value, values]
    · intro levels height deep
      cases height with
      | zero => contradiction
      | succ height =>
        exact ⟨lengths ▸ countIs_minimal (by omega), fits levels height (le_of_lt_succ deep)⟩
  | .tag tag inner, bytes, encoded, short => by
    rw [encodeInto] at encoded
    rcases bind_eq_ok encoded with ⟨body, encodedBody, done⟩
    cases done
    rw [length_append] at short
    rcases writes_of_encodeInto inner body encodedBody (by omega) with
      ⟨item, written, value, fits⟩
    refine ⟨.tag (minimal tag) item, ?_, ?_, ?_⟩
    · rw [← written, Item.encoding, Item.tail]
      exact congrArg (· ++ item.encoding) (putHeader_eq 6 (by decide) _).symm
    · rw [Item.value, value_minimal, UInt64.ofNat_toNat, value]
    · intro levels height deep
      cases height with
      | zero => contradiction
      | succ height => exact fits levels height (lt_of_succ_lt_succ deep)
  | .bool b, bytes, encoded, _ => by
    cases encoded
    exact ⟨.simple (.bool b), by cases b <;> rfl, rfl, fits_of_succ fun _ _ => trivial⟩
  | .null, bytes, encoded, _ => by
    cases encoded
    exact ⟨.simple .null, rfl, rfl, fits_of_succ fun _ _ => trivial⟩
  | .float bits, bytes, encoded, _ => by
    cases encoded
    exact ⟨.simple (.double bits), rfl, rfl, fits_of_succ fun _ _ => trivial⟩

theorem writes_of_encodeItems : (items : List Value) → (bytes : Bytes) →
    encodeItems items = .ok bytes → bytes.length < 2 ^ 64 →
    ∃ written : List Item, Item.bytesOfItems written = bytes ∧
      Item.valueOfItems written = items ∧
      ∀ levels height, Value.depthOfItems items ≤ height → Item.ItemsFit levels height written
  | [], bytes, encoded, _ => by
    cases encoded
    exact ⟨[], rfl, rfl, fun _ _ _ => trivial⟩
  | item :: items, bytes, encoded, short => by
    rw [encodeItems] at encoded
    rcases bind_eq_ok encoded with ⟨first, encodedFirst, later⟩
    rcases bind_eq_ok later with ⟨rest, encodedRest, done⟩
    cases done
    rw [length_append] at short
    rcases writes_of_encodeInto item first encodedFirst (by omega) with
      ⟨here, written, value, fits⟩
    rcases writes_of_encodeItems items rest encodedRest (by omega) with
      ⟨others, writtenRest, values, fitsRest⟩
    refine ⟨here :: others, ?_, ?_, ?_⟩
    · rw [Item.bytesOfItems, writtenRest, ← written]
      rfl
    · rw [Item.valueOfItems, value, values]
    · intro levels height deep
      rw [Value.depthOfItems, Nat.max_le] at deep
      exact ⟨fits levels height deep.1, fitsRest levels height deep.2⟩

theorem writes_of_encodeEntries : (entries : List (Value × Value)) → (bytes : Bytes) →
    encodeEntries entries = .ok bytes → bytes.length < 2 ^ 64 →
    ∃ written : List (Item × Item), Item.bytesOfEntries written = bytes ∧
      Item.valueOfEntries written = entries ∧
      ∀ levels height, Value.depthOfEntries entries ≤ height →
        Item.EntriesFit levels height written
  | [], bytes, encoded, _ => by
    cases encoded
    exact ⟨[], rfl, rfl, fun _ _ _ => trivial⟩
  | (key, value) :: entries, bytes, encoded, short => by
    rw [encodeEntries] at encoded
    rcases bind_eq_ok encoded with ⟨k, encodedKey, later⟩
    rcases bind_eq_ok later with ⟨v, encodedValue, latest⟩
    rcases bind_eq_ok latest with ⟨rest, encodedRest, done⟩
    cases done
    rw [length_append, length_append] at short
    rcases writes_of_encodeInto key k encodedKey (by omega) with
      ⟨keyItem, writtenKey, sameKey, keyFits⟩
    rcases writes_of_encodeInto value v encodedValue (by omega) with
      ⟨item, written, same, fits⟩
    rcases writes_of_encodeEntries entries rest encodedRest (by omega) with
      ⟨others, writtenRest, values, fitsRest⟩
    refine ⟨(keyItem, item) :: others, ?_, ?_, ?_⟩
    · rw [Item.bytesOfEntries, writtenRest, ← writtenKey, ← written, append_assoc]
      rfl
    · rw [Item.valueOfEntries, sameKey, same, values]
    · intro levels height deep
      rw [Value.depthOfEntries, Nat.max_le, Nat.max_le] at deep
      exact ⟨⟨keyFits levels height deep.1.1, fits levels height deep.1.2⟩,
        fitsRest levels height deep.2⟩

end

/-- The bytes of an encoded value say what it was, however deep it is. -/
theorem encode_injective {v w : Value} (left : encode v = .ok bytes) (right : encode w = .ok bytes)
    (short : bytes.length < 2 ^ 64) : v = w := by
  rcases writes_of_encodeInto v bytes left short with ⟨item, written, value, fits⟩
  rcases writes_of_encodeInto w bytes right short with ⟨other, writtenOther, valueOther, fitsOther⟩
  let height := max v.depth w.depth + 1
  have here := (exact_read 0 height bytes item []).mpr
    ⟨fits 0 height (lt_succ_of_le (le_max_left _ _)), by rw [written, append_nil]⟩
  have there := (exact_read 0 height bytes other []).mpr
    ⟨fitsOther 0 height (lt_succ_of_le (le_max_right _ _)), by
      rw [writtenOther, append_nil]⟩
  have same : item = other := by
    rw [here] at there
    exact congrArg Prod.fst (ok.inj there)
  rw [← value, ← valueOther, same]

/-- Every item takes at least one byte. -/
theorem length_le_of_encodeItems {items : List Value} (encoded : encodeItems items = .ok bytes)
    (short : bytes.length < 2 ^ 64) : items.length ≤ bytes.length := by
  rcases writes_of_encodeItems items bytes encoded short with ⟨written, same, values, _⟩
  have count := length_le_bytesOfItems written
  rw [← values, Item.valueOfItems_eq_map, length_map, ← same]
  exact count

theorem length_le_of_encodeEntries {entries : List (Value × Value)}
    (encoded : encodeEntries entries = .ok bytes) (short : bytes.length < 2 ^ 64) :
    entries.length ≤ bytes.length := by
  rcases writes_of_encodeEntries entries bytes encoded short with ⟨written, same, values, _⟩
  have count := length_le_bytesOfEntries written
  rw [← values, Item.valueOfEntries_eq_map, length_map, ← same]
  exact count

/-! ## What is decoded -/

mutual

/-- The value of an item that fits is not deeper than the levels it takes. -/
theorem depth_lt_of_fits {levels : Nat} : (item : Item) → (height : Nat) →
    item.Fits levels height → item.value.depth < height
  | item, 0, fits => by cases item <;> exact fits.elim
  | .unsigned _, _ + 1, _ => succ_pos _
  | .negative _, _ + 1, _ => succ_pos _
  | .bytes _, _ + 1, _ => succ_pos _
  | .text _ _ _, _ + 1, _ => succ_pos _
  | .array _ items, height + 1, fits =>
    lt_succ_of_le (depthOfItems_le_of_fit items height fits.2)
  | .map _ entries, height + 1, fits =>
    lt_succ_of_le (depthOfEntries_le_of_fit entries height fits.2)
  | .tag _ item, height + 1, fits => succ_lt_succ (depth_lt_of_fits item height fits)
  | .simple s, _ + 1, _ => by cases s <;> exact succ_pos _

theorem depthOfItems_le_of_fit {levels : Nat} : (items : List Item) → (height : Nat) →
    Item.ItemsFit levels height items → Value.depthOfItems (Item.valueOfItems items) ≤ height
  | [], _, _ => zero_le _
  | item :: items, height, fits =>
    Nat.max_le.mpr ⟨depth_lt_of_fits item height fits.1,
      depthOfItems_le_of_fit items height fits.2⟩

theorem depthOfEntries_le_of_fit {levels : Nat} : (entries : List (Item × Item)) →
    (height : Nat) → Item.EntriesFit levels height entries →
    Value.depthOfEntries (Item.valueOfEntries entries) ≤ height
  | [], _, _ => zero_le _
  | (key, item) :: entries, height, fits =>
    Nat.max_le.mpr ⟨Nat.max_le.mpr ⟨depth_lt_of_fits key height fits.1.1,
      depth_lt_of_fits item height fits.1.2⟩, depthOfEntries_le_of_fit entries height fits.2⟩

end

mutual

/-- Header arguments have at most 64 bits. -/
theorem inRange_integers : (item : Item) → ∀ i ∈ item.value.integers, InRange i
  | .unsigned arg => by
    have small := arg.value_lt
    simp only [Item.value, Value.integers, mem_singleton, forall_eq, InRange]
    omega
  | .negative arg => by
    have small := arg.value_lt
    simp only [Item.value, Value.integers, mem_singleton, forall_eq, InRange]
    omega
  | .bytes _ => by simp [Item.value, Value.integers]
  | .text _ _ _ => by simp [Item.value, Value.integers]
  | .array _ items => by
    rw [Item.value, Value.integers]
    exact inRange_integersOfItems items
  | .map _ entries => by
    rw [Item.value, Value.integers]
    exact inRange_integersOfEntries entries
  | .tag _ item => by
    rw [Item.value, Value.integers]
    exact inRange_integers item
  | .simple s => by
    cases s with
    | unassigned n large =>
      have small := n.toNat_lt
      simp only [Item.value, Simple.value, Value.integers, mem_singleton, forall_eq, InRange]
      omega
    | _ => simp [Item.value, Simple.value, Value.integers]

theorem inRange_integersOfItems : (items : List Item) →
    ∀ i ∈ Value.integersOfItems (Item.valueOfItems items), InRange i
  | [] => by simp [Item.valueOfItems, Value.integersOfItems]
  | item :: items => by
    rw [Item.valueOfItems, Value.integersOfItems, forall_mem_append]
    exact ⟨inRange_integers item, inRange_integersOfItems items⟩

theorem inRange_integersOfEntries : (entries : List (Item × Item)) →
    ∀ i ∈ Value.integersOfEntries (Item.valueOfEntries entries), InRange i
  | [] => by simp [Item.valueOfEntries, Value.integersOfEntries]
  | (key, item) :: entries => by
    rw [Item.valueOfEntries, Value.integersOfEntries, forall_mem_append, forall_mem_append]
    exact ⟨⟨inRange_integers key, inRange_integers item⟩, inRange_integersOfEntries entries⟩

end

/-! ## Round trips -/

/-- What was encoded is decoded, and the decoder stops after it. -/
theorem run_encode {v : Value} {bytes rest : Bytes} (encoded : encode v = .ok bytes)
    (shallow : v.depth ≤ maxDepth) (fits : (bytes ++ rest).length < 2 ^ 63) :
    Decoder.run (bytes ++ rest) = .ok (v, { buf := bytes ++ rest, pos := bytes.length }) := by
  rw [length_append] at fits
  rcases writes_of_encodeInto v bytes encoded (by omega) with ⟨item, written, value, itemFits⟩
  refine (Decoder.run_eq_ok_iff ⟨bytes ++ rest, by rw [length_append]; omega⟩ v _).mpr
    ⟨item, rest, itemFits 1 _ (lt_succ_of_le shallow), ?_, value.symm, ?_⟩
  · rw [written]
  · rw [written]

theorem decode_encode {v : Value} {bytes rest : Bytes} (encoded : encode v = .ok bytes)
    (shallow : v.depth ≤ maxDepth) (fits : (bytes ++ rest).length < 2 ^ 63) :
    decode ⟨bytes ++ rest, fits⟩ = .ok v := by
  rcases (Decoder.run_eq_ok_iff ⟨bytes ++ rest, fits⟩ v _).mp
    (run_encode encoded shallow fits) with ⟨item, after, itemFits, split, value, _⟩
  exact (decode_eq_ok_iff _ v).mpr ⟨item, after, itemFits, split, value⟩

/-- Encoding and decoding with anything after the encoded value, and the failures of
`encode`. -/
theorem encode_roundTrip (v : Value) :
    (v.depth ≤ maxDepth → (∀ i ∈ v.integers, InRange i) →
      ∃ bytes, encode v = .ok bytes ∧
        ∀ (rest : Bytes) (fits : (bytes ++ rest).length < 2 ^ 63),
          decode ⟨bytes ++ rest, fits⟩ = .ok v ∧
          Decoder.run (bytes ++ rest) =
            .ok (v, { buf := bytes ++ rest, pos := bytes.length })) ∧
    ((∃ e, encode v = .error e) ↔ ∃ i ∈ v.integers, ¬InRange i) := by
  constructor
  · intro shallow inRange
    rcases (encodeInto_isOk_iff v).mpr inRange with ⟨bytes, encoded⟩
    exact ⟨bytes, encoded, fun rest fits =>
      ⟨decode_encode encoded shallow fits, run_encode encoded shallow fits⟩⟩
  · have succeeds := encodeInto_isOk_iff v
    constructor
    · rintro ⟨e, failed⟩
      by_contra all
      push Not at all
      rcases succeeds.mpr all with ⟨bytes, encoded⟩
      rw [encode, encoded] at failed
      contradiction
    · rintro ⟨i, member, outside⟩
      cases result : encode v with
      | error e => exact ⟨e, rfl⟩
      | ok bytes => exact absurd (succeeds.mp ⟨bytes, result⟩ i member) outside

/-- A tagged array of both integer signs, followed by a break byte. -/
theorem encode_roundTrip_tagged :
    ∃ bytes, encode (.tag 24 (.array [.integer 1000, .integer (-1), .float 0])) = .ok bytes ∧
      ∀ fits, decode ⟨bytes ++ [0xff], fits⟩ =
        .ok (.tag 24 (.array [.integer 1000, .integer (-1), .float 0])) := by
  rcases (encode_roundTrip (.tag 24 (.array [.integer 1000, .integer (-1), .float 0]))).1
    (by decide) (by decide) with ⟨bytes, encoded, decoded⟩
  exact ⟨bytes, encoded, fun fits => (decoded [0xff] fits).1⟩

/-- Decoding hostile input: no hazard is met, and what is decoded can be encoded and
decoded again. -/
theorem decode_hardened (input : Slice) :
    (∀ h, Decoder.run input.bytes ≠ .error (.hazard h)) ∧
    ∀ v, decode input = .ok v → ∃ bytes, encode v = .ok bytes ∧
      ∀ fits : bytes.length < 2 ^ 63, decode ⟨bytes, fits⟩ = .ok v := by
  refine ⟨Decoder.run_ne_hazard input, ?_⟩
  intro v decoded
  rcases (decode_eq_ok_iff input v).mp decoded with ⟨item, rest, itemFits, _, value⟩
  have inRange : ∀ i ∈ v.integers, InRange i := value ▸ inRange_integers item
  have shallow : v.depth ≤ maxDepth :=
    le_of_lt_succ (value ▸ depth_lt_of_fits item Decoder.topHeight itemFits)
  rcases (encodeInto_isOk_iff v).mpr inRange with ⟨bytes, encoded⟩
  refine ⟨bytes, encoded, ?_⟩
  intro fits
  have whole := @decode_encode v bytes [] encoded shallow (by rwa [append_nil])
  simpa only [append_nil] using whole

end TrustForge.Cbor
