import TrustForge.Cbor.Grammar
import TrustForge.Foundation.Format

/-!
# A reader for the syntax of CBOR

The reader takes bytes to the item they start with.  It is exact: it accepts what an
item that fits is written as, whatever follows, and nothing else.  The decoders are
compared with it piece by piece, so it makes their checks in their order and fails with
their errors.
-/

namespace TrustForge.Cbor

open Format Simple Option Nat


/-- A reader of bytes. -/
abbrev Parser (α : Type) := Program CborError Bytes α

/-! ## Bytes -/

def nextByte : Parser UInt8
  | [] => .error .truncated
  | byte :: rest => .ok (byte, rest)

def takeExact (n : Nat) : Parser Bytes := fun input =>
  if n ≤ input.length then .ok (input.take n, input.drop n) else .error .truncated

theorem exact_nextByte : Exact nextByte (fun _ => True) fun byte => [byte] := by
  intro input byte rest
  cases input with
  | nil | cons => simp [nextByte]

theorem take_drop_eq_iff {n : Nat} {input : Bytes} (enough : n ≤ input.length)
    (taken rest : Bytes) :
    (input.take n = taken ∧ input.drop n = rest) ↔ taken.length = n ∧ input = taken ++ rest := by
  constructor
  · rintro ⟨front, back⟩
    rw [← front, ← back, List.take_append_drop, List.length_take, min_eq_left enough]
    exact ⟨rfl, rfl⟩
  · rintro ⟨length, split⟩
    rw [split, ← length, List.take_left, List.drop_left]
    exact ⟨rfl, rfl⟩

theorem exact_takeExact (n : Nat) : Exact (takeExact n) (fun bytes => bytes.length = n) id := by
  intro input bytes rest
  by_cases enough : n ≤ input.length
  · rw [takeExact, if_pos enough, Except.ok.injEq, Prod.mk.injEq, take_drop_eq_iff enough]
    rfl
  · rw [takeExact, if_neg enough]
    constructor
    · nofun
    · rintro ⟨length, split⟩
      rw [split, id, List.length_append] at enough
      omega

/-- A big-endian number of the given width. -/
def readNumber (width : Nat) : Parser (Fin (256 ^ width)) :=
  (fun bytes => ⟨BigEndian.decode bytes % 256 ^ width, Nat.mod_lt _ (Nat.pow_pos (by decide))⟩) <$>
    takeExact width

theorem exact_readNumber (width : Nat) :
    Exact (readNumber width) (fun _ => True) fun n => BigEndian.encode width n := by
  apply (exact_takeExact width).map
  · rintro bytes rfl
    show BigEndian.encode bytes.length (BigEndian.decode bytes % 256 ^ bytes.length) = bytes
    rw [Nat.mod_eq_of_lt (BigEndian.decode_lt bytes), BigEndian.encode_decode]
  · intro n
    refine ⟨fun _ => ⟨BigEndian.encode width n, BigEndian.length_encode width n, ?_⟩,
      fun _ => trivial⟩
    apply Fin.ext
    show BigEndian.decode (BigEndian.encode width n) % 256 ^ width = n
    rw [BigEndian.decode_encode width n n.isLt, Nat.mod_eq_of_lt n.isLt]

/-- A number of width one is a byte. -/
theorem readNumber_one :
    readNumber 1 = (fun b : UInt8 => ⟨b.toNat, b.toNat_lt⟩) <$> nextByte := by
  funext input
  cases input with
  | nil => rfl
  | cons first rest =>
    refine (exact_readNumber 1 _ _ _).mpr ⟨trivial, ?_⟩
    show first :: rest = [UInt8.ofNat first.toNat] ++ rest
    rw [UInt8.ofNat_toNat, List.singleton_append]

/-! ## Header arguments -/

def readArg (info : Nat) : Parser Arg :=
  if direct : info < 24 then pure (.direct ⟨info, direct⟩)
  else
    match Width.ofInfo? info with
    | some width => .wide width <$> readNumber width.size
    | none => throw (.invalid "reserved additional-info value")

theorem readArg_of_reserved {info : Nat} (notDirect : ¬info < 24) (one : info ≠ 24)
    (two : info ≠ 25) (four : info ≠ 26) (eight : info ≠ 27) :
    readArg info = throw (.invalid "reserved additional-info value") := by
  have none : Width.ofInfo? info = none := by
    unfold Width.ofInfo?
    split <;> first | contradiction | rfl
  rw [readArg, dif_neg notDirect, none]

theorem Arg.info_eq_iff_of_lt {info : Nat} (small : info < 24) (arg : Arg) :
    arg.info = info ↔ arg = .direct ⟨info, small⟩ := by
  cases arg with
  | direct n => simp [Arg.info, Fin.ext_iff]
  | wide width n =>
    have large := width.info_bounds.1
    simp only [Arg.info, reduceCtorEq, iff_false]
    omega

theorem Arg.info_eq_iff_of_not_lt {info : Nat} (large : ¬info < 24) (arg : Arg) :
    arg.info = info ↔ ∃ width, Width.ofInfo? info = some width ∧ ∃ n, .wide width n = arg := by
  constructor
  · rintro rfl
    cases arg with
    | direct n => exact absurd n.isLt large
    | wide width n => exact ⟨width, (Width.ofInfo?_eq_some_iff _ _).mpr rfl, n, rfl⟩
  · rintro ⟨width, found, n, rfl⟩
    exact (Width.ofInfo?_eq_some_iff _ _).mp found

theorem exact_readArg (info : Nat) :
    Exact (readArg info) (fun arg => arg.info = info) Arg.tail := by
  unfold readArg
  split
  · rename_i small
    simp only [Arg.info_eq_iff_of_lt small]
    exact exact_pure rfl
  · rename_i large
    simp only [Arg.info_eq_iff_of_not_lt large]
    cases found : Width.ofInfo? info with
    | none => exact exact_throw (by simp)
    | some width =>
      apply (exact_readNumber width.size).map
      · intro n _
        rfl
      · intro arg
        simp

/-! ## Strings -/

/-- The bytes announced by a header argument. -/
def readPayload (arg : Arg) : Parser Chunk := fun input =>
  if enough : arg.value ≤ input.length then
    .ok (⟨arg, input.take arg.value, List.length_take_of_le enough⟩, input.drop arg.value)
  else .error .truncated

def readChunk (info : Nat) : Parser Chunk := do
  let arg ← readArg info
  readPayload arg

/-- A chunk of an indefinite-length string, or the break after the last one. -/
def chunkStep (major : Nat) : Parser (Option Chunk) := do
  let initial ← nextByte
  if initial = 0xff then pure none
  else if (initial >>> 5).toNat ≠ major ∨ (initial &&& 0x1f).toNat = 31 then
    throw (.invalid "bad chunk in indefinite string")
  else some <$> readChunk (initial &&& 0x1f).toNat

def readStr (levels height major info : Nat) : Parser Str :=
  if info = 31 then
    if height < levels then throw .tooDeep
    else .indefinite <$> untilStop (throw .truncated) (chunkStep major)
  else .definite <$> readChunk info

theorem exact_readPayload (arg : Arg) :
    Exact (readPayload arg) (fun chunk => chunk.arg = arg) Chunk.payload := by
  intro input chunk rest
  unfold readPayload
  split
  · rename_i enough
    rcases chunk with ⟨other, payload, fits⟩
    have split := take_drop_eq_iff enough payload rest
    simp only [Except.ok.injEq, Prod.mk.injEq, Chunk.mk.injEq]
    constructor
    · rintro ⟨⟨same, front⟩, back⟩
      exact ⟨same.symm, (split.mp ⟨front, back⟩).2⟩
    · rintro ⟨rfl, whole⟩
      rcases split.mpr ⟨fits, whole⟩ with ⟨front, back⟩
      exact ⟨⟨rfl, front⟩, back⟩
  · rename_i short
    constructor
    · nofun
    · rintro ⟨rfl, split⟩
      rw [split, List.length_append, chunk.fits] at short
      omega

theorem exact_readChunk (info : Nat) :
    Exact (readChunk info) (fun chunk => chunk.arg.info = info) Chunk.tail := by
  apply (exact_readArg info).bind _ _ fun arg _ => exact_readPayload arg
  · rintro arg chunk _ rfl
    rfl
  · intro chunk
    simp

/-- What the first byte of a step says about its result. -/
def ChunkStart (major : Nat) (initial : UInt8) : Option Chunk → Prop
  | none => initial = 0xff
  | some chunk => initial = headByte major chunk.arg.info

theorem chunkStart_some_iff {major : Nat} {initial : UInt8} (small : major < 8) (chunk : Chunk) :
    ChunkStart major initial (some chunk) ↔
      (initial >>> 5).toNat = major ∧ chunk.arg.info = (initial &&& 0x1f).toNat := by
  have infoSmall : chunk.arg.info < 32 := lt_trans chunk.arg.info_lt (by decide)
  constructor
  · rintro rfl
    exact ⟨(headByte_parts small infoSmall).1, (headByte_parts small infoSmall).2.symm⟩
  · rintro ⟨majors, infos⟩
    rw [ChunkStart, ← majors, infos, headByte_of_parts]

theorem exactStep_chunkStep {major : Nat} (isString : major < 7) :
    ExactStep (chunkStep major) [0xff] (fun _ => True)
      fun chunk => headByte major chunk.arg.info :: chunk.tail := by
  have small : major < 8 := by omega
  have notBreak (chunk : Chunk) : headByte major chunk.arg.info ≠ 0xff :=
    headByte_ne_break small (lt_trans chunk.arg.info_lt (by decide)) (by omega)
  apply exact_nextByte.bind (ChunkStart major) (fun _ found => found.elim [] Chunk.tail)
  · intro initial _
    apply Exact.ite
    · intro isBreak
      apply (exact_pure rfl).of_iff
      intro found
      cases found with
      | none => simpa [ChunkStart] using isBreak
      | some chunk => simpa [ChunkStart, isBreak] using (notBreak chunk).symm
    · intro other
      apply Exact.ite
      · intro bad
        apply exact_throw
        intro found start
        cases found with
        | none => exact other start
        | some chunk =>
          have parts := (chunkStart_some_iff small chunk).mp start
          have infoSmall := chunk.arg.info_lt
          omega
      · intro good
        apply (exact_readChunk _).map
        · intro chunk _
          rfl
        · intro found
          cases found with
          | none => simpa [ChunkStart] using other
          | some chunk =>
            rw [chunkStart_some_iff small]
            simp only [some.injEq, exists_eq_right]
            omega
  · intro initial found _ start
    cases found with
    | none | some => rw [start]; rfl
  · intro found
    cases found with
    | none | some => simp [ChunkStart]

/-- Enough levels for a string whose first byte has been seen. -/
theorem exact_readStr (levels height : Nat) {major : Nat} (isString : major < 7) (info : Nat) :
    Exact (readStr levels height major info)
      (fun s => s.info = info ∧ s.Fits levels height) (Str.tail major) := by
  apply Exact.ite
  · rintro rfl
    have indefinite (s : Str) : s.info = 31 ↔ ∃ chunks, Str.indefinite chunks = s := by
      cases s with
      | definite chunk =>
        have small := chunk.arg.info_lt
        simp only [Str.info, reduceCtorEq, exists_false, iff_false]
        omega
      | indefinite chunks => simp [Str.info]
    apply Exact.ite
    · intro low
      apply exact_throw
      rintro s ⟨long, fits⟩
      rcases (indefinite s).mp long with ⟨chunks, rfl⟩
      exact absurd fits (not_le.mpr low)
    · intro high
      apply (exact_untilStop (exactStep_chunkStep isString) (by simp) _).map
      · intro chunks _
        rfl
      · intro s
        rw [indefinite]
        constructor
        · rintro ⟨⟨chunks, rfl⟩, _⟩
          exact ⟨chunks, by simp, rfl⟩
        · rintro ⟨chunks, _, rfl⟩
          exact ⟨⟨chunks, rfl⟩, not_lt.mp high⟩
  · intro short
    apply (exact_readChunk info).map
    · intro chunk _
      rfl
    · intro s
      cases s with
      | definite chunk => simp [Str.info, Str.Fits]
      | indefinite chunks => simpa [Str.info] using fun same => absurd same.symm short

/-! ## Texts -/

/-- A text string, whose bytes must be UTF-8. -/
def readText (levels height info : Nat) : Parser Item := do
  let s ← readStr levels height 3 info
  match read : Text.ofUtf8? s.content with
  | some t => pure (.text s t (Text.utf8_of_ofUtf8? read))
  | none => throw (.invalid "text string is not UTF-8")

theorem exact_readText (levels height info : Nat) :
    Exact (readText levels height info)
      (fun item => item.major = 3 ∧ item.info = info ∧ item.Fits levels (height + 1))
      Item.tail := by
  apply (exact_readStr levels height (by decide) info).bind
    (fun s item => ∃ t valid, item = .text s t valid) (fun _ _ => [])
  · rintro s -
    split
    · rename_i t read
      apply (exact_pure rfl).of_iff
      intro item
      constructor
      · rintro ⟨other, valid, rfl⟩
        have same : other = t := by
          rw [← some.injEq, ← read, ← valid, Text.ofUtf8?_utf8]
        subst same
        rfl
      · rintro rfl
        exact ⟨t, _, rfl⟩
    · rename_i unreadable
      apply exact_throw
      rintro item ⟨t, valid, rfl⟩
      rw [← valid, Text.ofUtf8?_utf8] at unreadable
      contradiction
  · rintro s item _ ⟨t, valid, rfl⟩
    rw [List.append_nil, Item.tail]
  · intro item
    constructor
    · rintro ⟨isText, info, fits⟩
      cases item with
      | text s t valid => exact ⟨s, ⟨info, fits⟩, t, valid, rfl⟩
      | _ => simp [Item.major] at isText
    · rintro ⟨s, ⟨info, fits⟩, t, valid, rfl⟩
      exact ⟨rfl, info, fits⟩

/-! ## Simple values -/

def readSimple (info : Nat) : Parser Simple :=
  match info with
  | 20 => pure (.bool false)
  | 21 => pure (.bool true)
  | 22 => pure .null
  | 23 => pure .undefined
  | 24 => do
    let n ← nextByte
    if large : 32 ≤ n.toNat then pure (.unassigned n large)
    else throw (.invalid "non-minimal simple value")
  | 25 => (fun n => .half (.ofNat n.val)) <$> readNumber 2
  | 26 => (fun n => .single (.ofNat n.val)) <$> readNumber 4
  | 27 => (fun n => .double (.ofNat n.val)) <$> readNumber 8
  | 31 => throw (.invalid "unexpected break")
  | _ => throw (.invalid "reserved simple value")

theorem readSimple_of_reserved {info : Nat} (reserved : info ∉ [20, 21, 22, 23, 24, 25, 26, 27, 31]) :
    readSimple info = throw (.invalid "reserved simple value") := by
  unfold readSimple
  split
  case h_10 => rfl
  all_goals simp at reserved

theorem exact_readUnassigned :
    Exact (do
      let n ← nextByte
      if large : 32 ≤ n.toNat then pure (.unassigned n large)
      else throw (.invalid "non-minimal simple value") : Parser Simple)
      (fun s => s.info = 24) tail := by
  apply exact_nextByte.bind (fun n s => ∃ large, s = .unassigned n large)
    (fun _ _ => [])
  · intro n _
    split
    · rename_i large
      apply (exact_pure rfl).of_iff
      intro s
      simp [large]
    · rename_i small
      apply exact_throw
      rintro s ⟨large, _⟩
      exact small large
  · rintro n s _ ⟨large, rfl⟩
    rfl
  · intro s
    rcases s with (_ | _) | _ | _ | ⟨n, large⟩ | _ | _ | _ <;> simp [info, *]

theorem exact_readSimple (info : Nat) :
    Exact (readSimple info) (fun s => s.info = info) tail := by
  unfold readSimple
  split
  case h_1 | h_2 | h_3 | h_4 =>
    apply (exact_pure rfl).of_iff
    rintro ((_ | _) | _ | _ | _ | _ | _ | _) <;> simp [info]
  case h_5 => exact exact_readUnassigned
  case h_6 =>
    apply (exact_readNumber 2).map
    · intro n _
      rw [tail, UInt16.toNat_ofNat', Nat.mod_eq_of_lt (n.isLt.trans_eq (by decide))]
    · rintro ((_ | _) | _ | _ | _ | raw | _ | _) <;> simp [info]
      exact ⟨⟨raw.toNat, raw.toNat_lt⟩, by simp⟩
  case h_7 =>
    apply (exact_readNumber 4).map
    · intro n _
      rw [tail, UInt32.toNat_ofNat', Nat.mod_eq_of_lt (n.isLt.trans_eq (by decide))]
    · rintro ((_ | _) | _ | _ | _ | _ | raw | _) <;> simp [info]
      exact ⟨⟨raw.toNat, raw.toNat_lt⟩, by simp⟩
  case h_8 =>
    apply (exact_readNumber 8).map
    · intro n _
      rw [tail, UInt64.toNat_ofNat', Nat.mod_eq_of_lt (n.isLt.trans_eq (by decide))]
    · rintro ((_ | _) | _ | _ | _ | _ | _ | raw) <;> simp [info]
      exact ⟨⟨raw.toNat, raw.toNat_lt⟩, by simp⟩
  case h_9 =>
    apply exact_throw
    intro s same
    have small := s.info_lt
    omega
  case h_10 =>
    apply exact_throw
    rintro s rfl
    rcases s with (_ | _) | _ | _ | _ | _ | _ | _ <;> simp_all [info]

/-! ## Arrays and maps -/

/-- Refuse a count that the input cannot hold, at so many bytes for an element. -/
def ensureRoom (perItem count : Nat) : Parser Unit := fun input =>
  if count ≤ input.length / perItem then .ok ((), input) else .error .truncated

/-- An element, or the break after the last one. -/
def elementStep {α : Type} (element : Parser α) : Parser (Option α)
  | [] => .error .truncated
  | byte :: rest =>
    if byte = 0xff then .ok (none, rest) else (some <$> element) (byte :: rest)

/-- The elements of an array or a map, with their count if it is given. -/
def readCounted {α : Type} (perItem : Nat) (element : Parser α) (info : Nat) :
    Parser (Option Arg × List α) :=
  if info = 31 then (fun xs => (none, xs)) <$> untilStop (throw .truncated) (elementStep element)
  else do
    let arg ← readArg info
    ensureRoom perItem arg.value
    (fun xs => (some arg, xs)) <$> Program.times element arg.value

theorem info_eq_break_iff (info : UInt8) : info = 31 ↔ info.toNat = 31 := by
  rw [← UInt8.toNat_inj]
  rfl

theorem ensureRoom_bind_apply {α : Type} (perItem count : Nat) (f : Parser α) (input : Bytes) :
    (ensureRoom perItem count >>= fun _ => f) input =
      if count ≤ input.length / perItem then f input else .error .truncated := by
  rw [Program.bind_apply, ensureRoom]
  split <;> rfl

section

variable {α : Type} {element : Parser α} {Valid : α → Prop} {print : α → Bytes}

theorem exactStep_elementStep (exact : Exact element Valid print)
    (start : ∀ a, Valid a → ∃ byte rest, print a = byte :: rest ∧ byte ≠ 0xff) :
    ExactStep (elementStep element) [0xff] Valid print := by
  have elements : Exact (some <$> element) (fun found => ∃ a, Valid a ∧ some a = found)
      fun found => found.elim [0xff] print :=
    exact.map (fun _ _ => rfl) fun _ => Iff.rfl
  intro input found rest
  cases input with
  | nil =>
    constructor
    · nofun
    · rintro ⟨valid, split⟩
      cases found with
      | none => contradiction
      | some a =>
        rcases start a (valid a rfl) with ⟨byte, later, starts, _⟩
        simp [starts] at split
  | cons byte later =>
    by_cases isBreak : byte = 0xff
    · subst isBreak
      rw [elementStep, if_pos rfl]
      cases found with
      | none => simp
      | some a =>
        constructor
        · nofun
        · rintro ⟨valid, split⟩
          rcases start a (valid a rfl) with ⟨first, after, starts, notBreak⟩
          simp only [elim_some, starts, List.cons_append, List.cons.injEq] at split
          exact absurd split.1.symm notBreak
    · rw [elementStep, if_neg isBreak, elements]
      cases found with
      | none =>
        simp only [reduceCtorEq, and_false, exists_false, elim_none,
          List.singleton_append, List.cons.injEq, false_and, false_iff, not_and]
        intro _ same
        exact absurd same isBreak
      | some a => simp

theorem length_flatMap_ge {perItem : Nat} (room : ∀ a, Valid a → perItem ≤ (print a).length)
    (xs : List α) (valid : ∀ a ∈ xs, Valid a) :
    xs.length * perItem ≤ (xs.flatMap print).length := by
  induction xs with
  | nil => simp
  | cons x xs ih =>
    rcases List.forall_mem_cons.mp valid with ⟨first, later⟩
    have here := room x first
    have rest := ih later
    rw [List.flatMap_cons, List.length_append, List.length_cons, succ_mul]
    omega

theorem exact_ensureRoom {perItem count : Nat} (positive : 0 < perItem)
    (exact : Exact element Valid print) (room : ∀ a, Valid a → count * perItem ≤ (print a).length) :
    Exact (ensureRoom perItem count >>= fun _ => element) Valid print := by
  intro input a rest
  rw [Program.bind_eq_ok_iff]
  constructor
  · rintro ⟨_, between, checked, read⟩
    unfold ensureRoom at checked
    split at checked
    · cases checked
      exact (exact _ _ _).mp read
    · contradiction
  · rintro ⟨valid, split⟩
    refine ⟨(), input, ?_, (exact _ _ _).mpr ⟨valid, split⟩⟩
    have enough := room a valid
    rw [ensureRoom, if_pos]
    rw [le_div_iff_mul_le positive, split, List.length_append]
    omega

theorem exact_readCounted {perItem : Nat} (positive : 0 < perItem)
    (exact : Exact element Valid print)
    (start : ∀ a, Valid a → ∃ byte rest, print a = byte :: rest ∧ byte ≠ 0xff)
    (room : ∀ a, Valid a → perItem ≤ (print a).length) (info : Nat) :
    Exact (readCounted perItem element info)
      (fun read => Item.countInfo read.1 = info ∧ Item.CountIs read.1 read.2.length ∧
        ∀ a ∈ read.2, Valid a)
      fun read => Item.counted read.1 (read.2.flatMap print) := by
  apply Exact.ite
  · rintro rfl
    have nonempty : ∀ a, Valid a → print a ≠ [] := by
      intro a valid empty
      rcases start a valid with ⟨byte, rest, starts, _⟩
      rw [empty] at starts
      contradiction
    apply (exact_untilStop (exactStep_elementStep exact start) nonempty _).map
    · intro xs _
      rfl
    · rintro ⟨count, xs⟩
      constructor
      · rintro ⟨code, _, valid⟩
        cases count with
        | none => exact ⟨xs, valid, rfl⟩
        | some arg =>
          have small := arg.info_lt
          simp only [Item.countInfo, elim_some] at code
          omega
      · rintro ⟨ys, valid, same⟩
        cases same
        exact ⟨rfl, by simp [Item.CountIs], valid⟩
  · intro definite
    apply (exact_readArg info).bind
      (fun arg read => read.1 = some arg ∧ read.2.length = arg.value ∧
        ∀ a ∈ read.2, Valid a)
      (fun _ read => read.2.flatMap print)
    · intro arg _
      apply exact_ensureRoom positive
      · apply (exact.times arg.value).map
        · intro xs _
          rfl
        · rintro ⟨count, xs⟩
          constructor
          · rintro ⟨rfl, length, valid⟩
            exact ⟨xs, ⟨length, valid⟩, rfl⟩
          · rintro ⟨ys, valid, same⟩
            cases same
            exact ⟨rfl, valid⟩
      · rintro ⟨count, xs⟩ ⟨_, length, valid⟩
        rw [← length]
        exact length_flatMap_ge room xs valid
    · rintro arg ⟨count, xs⟩ _ ⟨rfl, _⟩
      rfl
    · rintro ⟨count, xs⟩
      constructor
      · rintro ⟨code, length, valid⟩
        cases count with
        | none => exact absurd code.symm definite
        | some arg => exact ⟨arg, code, rfl, length arg rfl, valid⟩
      · rintro ⟨arg, code, rfl, length, valid⟩
        exact ⟨code, by simpa [Item.CountIs] using length, valid⟩

end

/-! ## Items -/

/-- A key and its value. -/
def readEntry (inner : Parser Item) : Parser (Item × Item) := do
  let key ← inner
  let value ← inner
  pure (key, value)

/-- An item after its first byte; `inner` reads the items inside. -/
def readBody (levels height : Nat) (inner : Parser Item) (major info : Nat) : Parser Item :=
  match major with
  | 0 => .unsigned <$> readArg info
  | 1 => .negative <$> readArg info
  | 2 => .bytes <$> readStr levels height 2 info
  | 3 => readText levels height info
  | 4 => (fun read => .array read.1 read.2) <$> readCounted 1 inner info
  | 5 => (fun read => .map read.1 read.2) <$> readCounted 2 (readEntry inner) info
  | 6 => do
    let arg ← readArg info
    .tag arg <$> inner
  | _ => .simple <$> readSimple info

/-- An item, with the number of levels it may take. -/
def read (levels : Nat) : Nat → Parser Item
  | 0 => throw .tooDeep
  | height + 1 => do
    let initial ← nextByte
    readBody levels height (read levels height) (initial >>> 5).toNat (initial &&& 0x1f).toNat

theorem Item.encoding_start (item : Item) :
    ∃ byte rest, item.encoding = byte :: rest ∧ byte ≠ 0xff :=
  ⟨_, _, rfl, item.headByte_ne_break⟩

theorem entry_start (entry : Item × Item) :
    ∃ byte rest, entry.1.encoding ++ entry.2.encoding = byte :: rest ∧ byte ≠ 0xff := by
  rcases entry.1.encoding_start with ⟨byte, rest, starts, notBreak⟩
  exact ⟨byte, rest ++ entry.2.encoding, by rw [starts, List.cons_append], notBreak⟩

section

variable {levels height : Nat} {inner : Parser Item}
  (exact : Exact inner (Item.Fits levels height) Item.encoding)

include exact

theorem exact_readEntry :
    Exact (readEntry inner)
      (fun entry => entry.1.Fits levels height ∧ entry.2.Fits levels height)
      fun entry => entry.1.encoding ++ entry.2.encoding := by
  apply exact.bind
    (fun key entry => entry.1 = key ∧ entry.2.Fits levels height)
    (fun _ entry => entry.2.encoding)
  · intro key _
    apply exact.bind (fun value entry => entry = (key, value)) (fun _ _ => [])
    · intro value _
      exact exact_pure rfl
    · rintro value entry _ rfl
      exact (List.append_nil _).symm
    · rintro ⟨first, second⟩
      simp [and_comm]
  · rintro key entry _ ⟨rfl, _⟩
    rfl
  · rintro ⟨first, second⟩
    simp

theorem exact_readArray (info : Nat) :
    Exact ((fun read => Item.array read.1 read.2) <$> readCounted 1 inner info)
      (fun item => item.major = 4 ∧ item.info = info ∧ item.Fits levels (height + 1))
      Item.tail := by
  apply (exact_readCounted one_pos exact (fun item _ => item.encoding_start)
    (fun item _ => succ_pos _) info).map
  · rintro ⟨count, items⟩ _
    rw [Item.tail, Item.bytesOfItems_eq_flatMap]
  · intro item
    constructor
    · rintro ⟨isArray, code, fits⟩
      cases item with
      | array count items =>
        rw [Item.Fits, Item.itemsFit_iff] at fits
        exact ⟨(count, items), ⟨code, fits⟩, rfl⟩
      | _ => simp [Item.major] at isArray
    · rintro ⟨⟨count, items⟩, ⟨code, fits⟩, rfl⟩
      refine ⟨rfl, code, ?_⟩
      rw [Item.Fits, Item.itemsFit_iff]
      exact fits

theorem exact_readMap (info : Nat) :
    Exact ((fun read => Item.map read.1 read.2) <$> readCounted 2 (readEntry inner) info)
      (fun item => item.major = 5 ∧ item.info = info ∧ item.Fits levels (height + 1))
      Item.tail := by
  have room : ∀ entry : Item × Item, 2 ≤ (entry.1.encoding ++ entry.2.encoding).length := by
    intro entry
    simp only [Item.encoding, List.length_append, List.length_cons]
    omega
  apply (exact_readCounted two_pos (exact_readEntry exact) (fun entry _ => entry_start entry)
    (fun entry _ => room entry) info).map
  · rintro ⟨count, entries⟩ _
    rw [Item.tail, Item.bytesOfEntries_eq_flatMap]
  · intro item
    constructor
    · rintro ⟨isMap, code, fits⟩
      cases item with
      | map count entries =>
        rw [Item.Fits, Item.entriesFit_iff] at fits
        exact ⟨(count, entries), ⟨code, fits⟩, rfl⟩
      | _ => simp [Item.major] at isMap
    · rintro ⟨⟨count, entries⟩, ⟨code, fits⟩, rfl⟩
      refine ⟨rfl, code, ?_⟩
      rw [Item.Fits, Item.entriesFit_iff]
      exact fits

theorem exact_readTag (info : Nat) :
    Exact (readArg info >>= fun arg => Item.tag arg <$> inner)
      (fun item => item.major = 6 ∧ item.info = info ∧ item.Fits levels (height + 1))
      Item.tail := by
  apply (exact_readArg info).bind
    (fun arg item => ∃ tagged, tagged.Fits levels height ∧ .tag arg tagged = item)
    (fun arg item => item.tail.drop arg.tail.length)
  · intro arg _
    apply exact.map
    · intro tagged _
      rw [Item.tail, List.drop_left]
      rfl
    · intro item
      rfl
  · rintro arg item _ ⟨tagged, _, rfl⟩
    rw [Item.tail, List.drop_left]
  · intro item
    constructor
    · rintro ⟨isTag, code, fits⟩
      cases item with
      | tag arg tagged => exact ⟨arg, code, tagged, fits, rfl⟩
      | _ => simp [Item.major] at isTag
    · rintro ⟨arg, code, tagged, fits, rfl⟩
      exact ⟨rfl, code, fits⟩

theorem exact_readBody {major : Nat} (small : major < 8) (info : Nat) :
    Exact (readBody levels height inner major info)
      (fun item => item.major = major ∧ item.info = info ∧ item.Fits levels (height + 1))
      Item.tail := by
  unfold readBody
  split
  case h_1 =>
    apply (exact_readArg info).map (fun _ _ => by rw [Item.tail])
    rintro (_ | _ | _ | _ | _ | _ | _ | _) <;> simp [Item.major, Item.info, Item.Fits]
  case h_2 =>
    apply (exact_readArg info).map (fun _ _ => by rw [Item.tail])
    rintro (_ | _ | _ | _ | _ | _ | _ | _) <;> simp [Item.major, Item.info, Item.Fits]
  case h_3 =>
    apply (exact_readStr levels height (by decide) info).map (fun _ _ => by rw [Item.tail])
    rintro (_ | _ | _ | _ | _ | _ | _ | _) <;> simp [Item.major, Item.info, Item.Fits]
  case h_4 => exact exact_readText levels height info
  case h_5 => exact exact_readArray exact info
  case h_6 => exact exact_readMap exact info
  case h_7 => exact exact_readTag exact info
  case h_8 =>
    have seven : major = 7 := by grind
    subst seven
    apply (exact_readSimple info).map (fun _ _ => by rw [Item.tail])
    rintro (_ | _ | _ | _ | _ | _ | _ | _) <;> simp [Item.major, Item.info, Item.Fits]

end

/-- The reader accepts the items that fit and nothing else. -/
theorem exact_read (levels height : Nat) :
    Exact (read levels height) (Item.Fits levels height) Item.encoding := by
  induction height with
  | zero =>
    apply exact_throw
    intro item fits
    cases item <;> exact fits
  | succ height ih =>
    apply exact_nextByte.bind
      (fun (initial : UInt8) (item : Item) => item.major = (initial >>> 5).toNat ∧
        item.info = (initial &&& 0x1f).toNat ∧ item.Fits levels (height + 1))
      (fun _ item => Item.tail item)
    · intro initial _
      exact exact_readBody ih (major_lt initial) _
    · rintro initial item _ ⟨major, info, _⟩
      rw [Item.encoding, major, info, headByte_of_parts]
      rfl
    · intro item
      constructor
      · intro fits
        have parts := headByte_parts item.major_lt item.info_lt
        exact ⟨headByte item.major item.info, trivial, parts.1.symm, parts.2.symm, fits⟩
      · rintro ⟨_, _, _, _, fits⟩
        exact fits

end TrustForge.Cbor
