import Mathlib.Data.List.Forall2
import Mathlib.Data.List.Induction

/-!
# Glob matching

Model of `glob.rs`, the one pattern language shared by target constraints,
negative capabilities, agent-contract targets and policy `target_patterns`.

The matcher is a table-filling algorithm: one row per pattern token, one column
per prefix of the value.  The declarative reading is a split of the value into
consecutive pieces, one piece for each token; `globMatch_iff` identifies the two.
-/

namespace TrustForge.Glob

/-- Pattern tokens in the order `glob_match` collects them. -/
inductive Tok where
  /-- `**`: any run, `/` included. -/
  | any
  /-- `*`: any run without `/`. -/
  | anySegment
  | lit (c : Char)
  deriving Repr, DecidableEq

/-- Tokenise a pattern from left to right.  The peek at a second `*` makes `**`
bind tighter than two single stars. -/
def tokens : List Char → List Tok
  | '*' :: '*' :: rest => .any :: tokens rest
  | '*' :: rest => .anySegment :: tokens rest
  | c :: rest => .lit c :: tokens rest
  | [] => []

/-- Row update for `**`: once reachable, every later prefix is reachable. -/
def anyRow (reachable : Bool) : List Bool → List Bool
  | [] => []
  | reached :: rest => (reachable || reached) :: anyRow (reachable || reached) rest

/-- Row update for `*`: reachability moves right and is dropped after a `/`. -/
def segmentRow (reachable : Bool) : List Bool → List Char → List Bool
  | [], _ => []
  | reached :: rest, [] => (reachable || reached) :: segmentRow (reachable || reached) rest []
  | reached :: rest, c :: vals =>
    (reachable || reached) ::
      segmentRow (if c = '/' then false else reachable || reached) rest vals

/-- One iteration of the token loop: the next row of the table. -/
def Tok.nextRow (vals : List Char) (dp : List Bool) : Tok → List Bool
  | .lit l => false :: List.zipWith (fun reached c => reached && c == l) dp vals
  | .any => anyRow false dp
  | .anySegment => segmentRow false dp vals

/-- The row before any token: only the empty prefix is matched. -/
def firstRow (vals : List Char) : List Bool :=
  true :: List.replicate vals.length false

/-- All rows, token by token. -/
def table (vals : List Char) (toks : List Tok) : List Bool :=
  toks.foldl (fun dp tok => tok.nextRow vals dp) (firstRow vals)

end TrustForge.Glob

namespace TrustForge

/-- `glob_match`: the last column of the last row. -/
def globMatch (pattern value : String) : Bool :=
  (Glob.table value.toList (Glob.tokens pattern.toList)).getD value.toList.length false

end TrustForge

namespace TrustForge.Glob

open List

/-! ## Declarative matching -/

/-- The runs of characters a single token stands for. -/
def Tok.Matches : Tok → List Char → Prop
  | .any, _ => True
  | .anySegment, run => '/' ∉ run
  | .lit c, run => run = [c]

/-- The value splits into consecutive pieces, one for each token. -/
def Matches (toks : List Tok) (vals : List Char) : Prop :=
  ∃ pieces : List (List Char), pieces.flatten = vals ∧
    List.Forall₂ Tok.Matches toks pieces

@[simp] theorem matches_nil (vals : List Char) : Matches [] vals ↔ vals = [] := by
  constructor
  · rintro ⟨pieces, rfl, every⟩
    cases every
    rfl
  · rintro rfl
    exact ⟨[], rfl, .nil⟩

private theorem forall₂_snoc_left {toks : List Tok} {tok : Tok}
    {pieces : List (List Char)} (every : List.Forall₂ Tok.Matches (toks ++ [tok]) pieces) :
    ∃ front run, pieces = front ++ [run] ∧ List.Forall₂ Tok.Matches toks front ∧
      tok.Matches run := by
  induction toks generalizing pieces with
  | nil =>
    cases every with
    | cons first rest =>
      cases rest
      exact ⟨[], _, rfl, .nil, first⟩
  | cons head tail ih =>
    cases every with
    | @cons _ piece _ _ first rest =>
      obtain ⟨front, run, rfl, frontMatch, runMatch⟩ := ih rest
      exact ⟨piece :: front, run, rfl, .cons first frontMatch, runMatch⟩

/-- A split can be cut before its last token. -/
theorem matches_snoc (toks : List Tok) (tok : Tok) (vals : List Char) :
    Matches (toks ++ [tok]) vals ↔
      ∃ front run, front ++ run = vals ∧ Matches toks front ∧ tok.Matches run := by
  constructor
  · rintro ⟨pieces, rfl, every⟩
    obtain ⟨front, run, rfl, frontMatch, runMatch⟩ := forall₂_snoc_left every
    exact ⟨front.flatten, run, by simp, ⟨front, rfl, frontMatch⟩, runMatch⟩
  · rintro ⟨front, run, rfl, ⟨pieces, rfl, every⟩, runMatch⟩
    refine ⟨pieces ++ [run], by simp, ?_⟩
    exact rel_append every (.cons runMatch .nil)

/-- The same cut, with the front given by its length. -/
theorem matches_snoc_take (toks : List Tok) (tok : Tok) (vals : List Char) (j : Nat)
    (bound : j ≤ vals.length) :
    Matches (toks ++ [tok]) (vals.take j) ↔
      ∃ i ≤ j, Matches toks (vals.take i) ∧ tok.Matches ((vals.take j).drop i) := by
  rw [matches_snoc]
  constructor
  · rintro ⟨front, run, split, frontMatch, runMatch⟩
    have lengths := congrArg List.length split
    simp only [length_append, length_take] at lengths
    have within : front.length ≤ j := by omega
    refine ⟨front.length, within, ?_, ?_⟩
    · have : vals.take front.length = front := by
        have shorter := congrArg (List.take front.length) split
        simpa [take_take, Nat.min_eq_left within] using shorter.symm
      rwa [this]
    · rw [← split, drop_left]
      exact runMatch
  · rintro ⟨i, within, frontMatch, runMatch⟩
    refine ⟨vals.take i, (vals.take j).drop i, ?_, frontMatch, runMatch⟩
    have : vals.take i = (vals.take j).take i := by
      rw [take_take, Nat.min_eq_left within]
    rw [this, take_append_drop]

/-! ## Rows of the table -/

/-- The columns up to `j + 1` are the first one and those of the rest of the row. -/
private theorem exists_column_succ (j : Nat) (hit : Nat → Prop) :
    (∃ i ≤ j + 1, hit i) ↔ hit 0 ∨ ∃ i ≤ j, hit (i + 1) := by
  constructor
  · rintro ⟨i, within, here⟩
    cases i with
    | zero => exact .inl here
    | succ i => exact .inr ⟨i, Nat.le_of_succ_le_succ within, here⟩
  · rintro (here | ⟨i, within, here⟩)
    · exact ⟨0, Nat.zero_le _, here⟩
    · exact ⟨i + 1, Nat.succ_le_succ within, here⟩

variable (dp : List Bool)

variable (reachable : Bool)

theorem anyRow_getElem? (j : Nat) : (anyRow reachable dp)[j]? = some true ↔
      j < dp.length ∧ (reachable = true ∨ ∃ i ≤ j, dp[i]? = some true) := by
  induction dp generalizing reachable j with
  | nil => simp [anyRow]
  | cons reached rest ih =>
    cases j with
    | zero => simp [anyRow]
    | succ j =>
      simp [anyRow, ih, exists_column_succ, or_assoc]

variable (vals : List Char)

theorem segmentRow_getElem? (j : Nat) :
    (segmentRow reachable dp vals)[j]? = some true ↔
      j < dp.length ∧ ((reachable = true ∧ '/' ∉ vals.take j) ∨
        ∃ i ≤ j, dp[i]? = some true ∧ '/' ∉ (vals.take j).drop i) := by
  induction dp generalizing reachable vals j with
  | nil => simp [segmentRow]
  | cons reached rest ih =>
    cases j with
    | zero => cases vals <;> simp [segmentRow]
    | succ j =>
      cases vals with
      | nil =>
        simp [segmentRow, ih, exists_column_succ, or_assoc]
      | cons c vals =>
        simp only [segmentRow, getElem?_cons_succ, ih, exists_column_succ]
        by_cases slash : c = '/'
        · -- A separator resets the scan, so only later starting points count.
          simp [slash]
        · simp [slash, Ne.symm slash, or_and_right, or_assoc]

/-- A row is right for `toks` when column `j` says whether they match the prefix
of length `j`. -/
structure RowFor (vals : List Char) (toks : List Tok) (dp : List Bool) : Prop where
  length : dp.length = vals.length + 1
  column : ∀ j ≤ vals.length, dp[j]? = some true ↔ Matches toks (vals.take j)

theorem rowFor_firstRow : RowFor vals [] (firstRow vals) where
  length := by simp [firstRow]
  column := by
    intro j within
    cases j with
    | zero => simp [firstRow]
    | succ j =>
      have nonempty : vals ≠ [] := by
        rintro rfl
        simp at within
      simp [firstRow, getElem?_replicate, nonempty]

theorem anyRow_length : (anyRow reachable dp).length = dp.length := by
  induction dp generalizing reachable with
  | nil => rfl
  | cons reached rest ih => simp [anyRow, ih]

theorem segmentRow_length : (segmentRow reachable dp vals).length = dp.length := by
  induction dp generalizing reachable vals with
  | nil => simp [segmentRow]
  | cons reached rest ih => cases vals <;> simp [segmentRow, ih]

/-- Each token loop iteration turns a right row into a right row. -/
theorem RowFor.nextRow {vals : List Char} {toks : List Tok} {dp : List Bool}
    (row : RowFor vals toks dp) (tok : Tok) :
    RowFor vals (toks ++ [tok]) (tok.nextRow vals dp) := by
  have earlier : ∀ j ≤ vals.length, ∀ run : List Char → Prop,
      (∃ i ≤ j, dp[i]? = some true ∧ run ((vals.take j).drop i)) ↔
        ∃ i ≤ j, Matches toks (vals.take i) ∧ run ((vals.take j).drop i) := by
    intro j within run
    constructor
    · rintro ⟨i, le, hit, rest⟩
      exact ⟨i, le, (row.column i (Nat.le_trans le within)).mp hit, rest⟩
    · rintro ⟨i, le, hit, rest⟩
      exact ⟨i, le, (row.column i (Nat.le_trans le within)).mpr hit, rest⟩
  cases tok with
  | any =>
    refine ⟨by simp [Tok.nextRow, anyRow_length, row.length], fun j within => ?_⟩
    have inRange : j < dp.length := by rw [row.length]; omega
    rw [matches_snoc_take _ _ _ _ within, ← earlier j within (Tok.any.Matches)]
    simp [Tok.nextRow, anyRow_getElem?, inRange, Tok.Matches]
  | anySegment =>
    refine ⟨by simp [Tok.nextRow, segmentRow_length, row.length], fun j within => ?_⟩
    have inRange : j < dp.length := by rw [row.length]; omega
    rw [matches_snoc_take _ _ _ _ within, ← earlier j within (Tok.anySegment.Matches)]
    simp [Tok.nextRow, segmentRow_getElem?, inRange, Tok.Matches]
  | lit l =>
    refine ⟨by simp [Tok.nextRow, row.length], fun j within => ?_⟩
    rw [matches_snoc_take _ _ _ _ within]
    cases j with
    | zero => simp [Tok.nextRow, Tok.Matches]
    | succ j =>
      have inRange : j < vals.length := within
      have lastChar : (vals.take (j + 1)).drop j = [vals[j]] := by
        rw [take_succ_eq_append_getElem inRange, drop_append]
        simp [Nat.min_eq_left (Nat.le_of_lt inRange)]
      have columnHit : (Tok.nextRow vals dp (.lit l))[j + 1]? = some true ↔
          dp[j]? = some true ∧ vals[j] = l := by
        have dpRange : j < dp.length := by rw [row.length]; omega
        simp [Tok.nextRow, getElem?_zipWith, List.getElem?_eq_getElem dpRange,
          List.getElem?_eq_getElem inRange]
      rw [columnHit, row.column j (Nat.le_of_lt inRange)]
      constructor
      · rintro ⟨front, rfl⟩
        exact ⟨j, by omega, front, by rw [lastChar]; rfl⟩
      · rintro ⟨i, le, front, run⟩
        have size := congrArg List.length (show _ = [l] from run)
        simp only [length_drop, length_take, length_cons, length_nil] at size
        obtain rfl : i = j := by omega
        rw [lastChar] at run
        exact ⟨front, by simpa [Tok.Matches] using run⟩

/-- Running the token loop keeps the row right for the tokens read so far. -/
theorem rowFor_table (toks : List Tok) :
    RowFor vals toks (table vals toks) := by
  induction toks using reverseRecOn with
  | nil => exact rowFor_firstRow vals
  | append_singleton toks tok ih =>
    rw [table, foldl_append]
    exact ih.nextRow tok

end TrustForge.Glob

namespace TrustForge

open Glob

/-- The table algorithm decides the declarative matching relation. -/
theorem globMatch_iff (pattern value : String) :
    globMatch pattern value = true ↔ Matches (tokens pattern.toList) value.toList := by
  have row := rowFor_table value.toList (tokens pattern.toList)
  have last := row.column value.toList.length (Nat.le_refl _)
  rw [List.take_length] at last
  rw [← last, globMatch, List.getD_eq_getElem?_getD]
  have inRange : value.toList.length < (table value.toList (tokens pattern.toList)).length := by
    rw [row.length]
    omega
  simp [List.getElem?_eq_getElem inRange]

theorem Glob.matches_tokens_self (pattern : List Char) :
    Matches (tokens pattern) pattern := by
  induction pattern using tokens.induct with
  | case1 rest ih =>
    obtain ⟨pieces, flat, every⟩ := ih
    exact ⟨['*', '*'] :: pieces, by simp [flat], by
      simpa [tokens] using ⟨trivial, every⟩⟩
  | case2 rest notDouble ih =>
    obtain ⟨pieces, flat, every⟩ := ih
    refine ⟨['*'] :: pieces, by simp [flat], ?_⟩
    rw [tokens]
    · exact .cons (by simp [Tok.Matches]) every
    · exact notDouble
  | case3 c rest notDouble notStar ih =>
    obtain ⟨pieces, flat, every⟩ := ih
    refine ⟨[c] :: pieces, by simp [flat], ?_⟩
    rw [tokens]
    · exact .cons rfl every
    · exact notDouble
    · exact notStar
  | case4 => simp [tokens]

/-- Every string matches itself when read as a pattern: a `*` in it covers the
`*` character. -/
theorem globMatch_self (pattern : String) : globMatch pattern pattern = true :=
  (globMatch_iff pattern pattern).mpr (matches_tokens_self pattern.toList)

/-! ## Patterns by their text -/

/-- How the text of a pattern reads as tokens, from left to right. -/
inductive Glob.Reads : List Char → List Tok → Prop where
  | done : Reads [] []
  | double {rest : List Char} {toks : List Tok} (reads : Reads rest toks) :
      Reads ('*' :: '*' :: rest) (.any :: toks)
  /-- A star that no second star follows. -/
  | single {rest : List Char} {toks : List Tok} (alone : rest.head? ≠ some '*')
      (reads : Reads rest toks) : Reads ('*' :: rest) (.anySegment :: toks)
  | literal {c : Char} {rest : List Char} {toks : List Tok} (plain : c ≠ '*')
      (reads : Reads rest toks) : Reads (c :: rest) (.lit c :: toks)

theorem Glob.Reads.eq_tokens {pattern : List Char} {toks : List Tok}
    (reads : Reads pattern toks) : toks = tokens pattern := by
  induction reads with
  | done => rfl
  | double _ ih => rw [tokens, ih]
  | @single rest toks alone _ ih =>
    have notDouble : ∀ tail, rest = '*' :: tail → False := by
      rintro tail rfl
      exact alone rfl
    rw [tokens, ih]
    exact notDouble
  | literal plain _ ih =>
    rw [tokens, ih]
    · exact fun _ star _ => plain star
    · exact plain

theorem Glob.reads_tokens (pattern : List Char) : Reads pattern (tokens pattern) := by
  induction pattern using tokens.induct with
  | case1 rest ih =>
    rw [tokens]
    exact .double ih
  | case2 rest notDouble ih =>
    rw [tokens]
    · refine .single ?_ ih
      intro head
      obtain ⟨tail, cut⟩ := List.head?_eq_some_iff.mp head
      exact notDouble tail cut
    · exact notDouble
  | case3 c rest notDouble notStar ih =>
    rw [tokens]
    · exact .literal notStar ih
    · exact notDouble
    · exact notStar
  | case4 => exact .done

/-- A value matches exactly if it can be cut into one piece for each token that the text of
the pattern reads as. -/
theorem globMatch_meets_specification (pattern value : String) :
    globMatch pattern value = true ↔
      ∃ toks pieces, Reads pattern.toList toks ∧ pieces.flatten = value.toList ∧
        List.Forall₂ Tok.Matches toks pieces := by
  rw [globMatch_iff]
  constructor
  · rintro ⟨pieces, split, every⟩
    exact ⟨_, pieces, reads_tokens _, split, every⟩
  · rintro ⟨toks, pieces, reads, split, every⟩
    rw [reads.eq_tokens] at every
    exact ⟨pieces, split, every⟩

end TrustForge
