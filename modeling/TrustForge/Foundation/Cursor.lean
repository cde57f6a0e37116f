import TrustForge.Foundation.Program

/-!
# Reading through a cursor

A cursor is a buffer with a position.  It stands before an input when that input is
what the buffer holds from the position on.  Programs over cursors are compared with
programs over the input that is left.
-/

namespace TrustForge

open List

/-- A position in a buffer. -/
structure Cursor (κ : Type) where
  buf : List κ
  pos : Nat

namespace Cursor

variable {κ : Type} {buf : List κ} {cursor : Cursor κ} {input : List κ}

/-- The cursor stands before the input that is left of the buffer. -/
structure Follows (buf : List κ) (cursor : Cursor κ) (input : List κ) : Prop where
  same : cursor.buf = buf
  inside : cursor.pos ≤ cursor.buf.length
  left : cursor.buf.drop cursor.pos = input

theorem follows_start (buf : List κ) : Follows buf { buf := buf, pos := 0 } buf :=
  ⟨rfl, Nat.zero_le _, rfl⟩

theorem Follows.length_left (follows : Follows buf cursor input) :
    input.length = cursor.buf.length - cursor.pos := by
  rw [← follows.left, length_drop]

theorem Follows.drop (follows : Follows buf cursor input) {n : Nat} (enough : n ≤ input.length) :
    Follows buf { cursor with pos := cursor.pos + n } (input.drop n) := by
  have length := follows.length_left
  have inside := follows.inside
  refine ⟨follows.same, ?_, ?_⟩
  · show cursor.pos + n ≤ cursor.buf.length
    omega
  · rw [← follows.left, drop_drop]

/-- Behind the first part of the input. -/
theorem Follows.skip {front rest : List κ} (follows : Follows buf cursor (front ++ rest)) :
    Follows buf { cursor with pos := cursor.pos + front.length } rest := by
  have after := follows.drop (length_append ▸ Nat.le_add_right front.length rest.length)
  rwa [drop_left] at after

/-- A cursor with input left stands before its first element. -/
theorem Follows.cons {first : κ} {rest : List κ} (follows : Follows buf cursor (first :: rest)) :
    cursor.buf[cursor.pos]? = some first ∧ cursor.pos < cursor.buf.length ∧
      Follows buf { cursor with pos := cursor.pos + 1 } rest := by
  have length := follows.length_left
  have inside : cursor.pos < cursor.buf.length := by
    rw [length_cons] at length
    omega
  have split := follows.left
  rw [drop_eq_getElem_cons inside, cons.injEq] at split
  exact ⟨by rw [getElem?_eq_getElem inside, split.1], inside, follows.drop (by simp)⟩

theorem Follows.nil (follows : Follows buf cursor []) : cursor.buf[cursor.pos]? = none := by
  have length := follows.length_left
  rw [length_nil] at length
  rw [getElem?_eq_none]
  omega

/-- A cursor stands behind what has been read. -/
theorem Follows.eq_of_append {front rest : List κ} (follows : Follows buf cursor rest)
    (split : buf = front ++ rest) : cursor = { buf := buf, pos := front.length } := by
  rcases cursor with ⟨other, pos⟩
  have same : other = buf := follows.same
  subst same
  have length : rest.length = other.length - pos := follows.length_left
  have inside : pos ≤ other.length := follows.inside
  have total := congrArg List.length split
  rw [length_append] at total
  rw [Cursor.mk.injEq]
  exact ⟨rfl, by omega⟩

/-! ## Exact readers -/

section

variable {ε α : Type}

/-- A reader succeeds exactly where a valid result is printed, and stops behind it. -/
def Exact (reader : Program ε (Cursor κ) α) (Valid : α → Prop) (print : α → List κ) : Prop :=
  ∀ buf cursor input, Follows buf cursor input → ∀ a next,
    reader cursor = .ok (a, next) ↔
      Valid a ∧ ∃ rest, input = print a ++ rest ∧ Follows buf next rest

/-- There is one place to stop. -/
theorem Follows.unique {next other : Cursor κ} {rest : List κ} (follows : Follows buf next rest)
    (too : Follows buf other rest) : next = other := by
  rcases next with ⟨left, pos⟩
  rcases other with ⟨right, place⟩
  have sameLeft : left = buf := follows.same
  have sameRight : right = buf := too.same
  subst sameLeft sameRight
  have length : rest.length = right.length - pos := follows.length_left
  have lengthToo : rest.length = right.length - place := too.length_left
  have inside : pos ≤ right.length := follows.inside
  have insideToo : place ≤ right.length := too.inside
  rw [Cursor.mk.injEq]
  exact ⟨rfl, by omega⟩

/-- What has an exact reader is printed in one way. -/
theorem Exact.print_inj {p : Program ε (Cursor κ) α} {Valid : α → Prop} {print : α → List κ}
    (exact : Exact p Valid print) {a b : α} {rest rest' : List κ} (valid : Valid a)
    (validToo : Valid b) (same : print a ++ rest = print b ++ rest') : a = b ∧ rest = rest' := by
  have start := follows_start (print a ++ rest)
  have read := (exact _ _ _ start a _).mpr ⟨valid, rest, rfl, start.skip⟩
  rw [same] at start read
  have readToo := (exact _ _ _ start b _).mpr ⟨validToo, rest', rfl, start.skip⟩
  rw [read] at readToo
  cases readToo
  exact ⟨rfl, append_cancel_left same⟩

/-- Sequencing: what comes first is printed first. -/
theorem Exact.bind_eq_ok_iff {β : Type} {p : Program ε (Cursor κ) α} {Valid : α → Prop}
    {print : α → List κ} {q : α → Program ε (Cursor κ) β} {next : Cursor κ} {b : β}
    (exact : Exact p Valid print) (follows : Follows buf cursor input) :
    (p >>= q) cursor = .ok (b, next) ↔
      ∃ a rest between, Valid a ∧ input = print a ++ rest ∧ Follows buf between rest ∧
        q a between = .ok (b, next) := by
  rw [Program.bind_eq_ok_iff]
  constructor
  · rintro ⟨a, between, read, readNext⟩
    obtain ⟨valid, rest, split, after⟩ := (exact buf cursor input follows a between).mp read
    exact ⟨a, rest, between, valid, split, after, readNext⟩
  · rintro ⟨a, rest, between, valid, split, after, readNext⟩
    exact ⟨a, between, (exact buf cursor input follows a between).mpr ⟨valid, rest, split, after⟩,
      readNext⟩

end

end Cursor

end TrustForge
