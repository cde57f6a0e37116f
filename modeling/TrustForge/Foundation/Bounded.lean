import TrustForge.Foundation.AssocMap
import TrustForge.Foundation.Text

/-!
# Containers of a fixed capacity

Strings, double-ended queues and maps that live in arrays of a fixed size.  Each carries
the proof that it fits; an operation that would not fit fails.
-/

namespace TrustForge.Bounded

open Option String Nat

/-- A string of at most `cap` bytes. -/
@[ext] structure Str (cap : Nat) where
  text : String
  fits : (Text.utf8 text).length ≤ cap
  deriving DecidableEq

namespace Str

variable {cap : Nat}

/-- Append a text. -/
def pushStr (s : Str cap) (more : String) : Option (Str cap) :=
  if fits : (Text.utf8 (s.text ++ more)).length ≤ cap then some ⟨s.text ++ more, fits⟩ else none

/-- The empty string. -/
def empty : Str cap where
  text := ""
  fits := zero_le cap

theorem pushStr_eq_some_iff {s t : Str cap} {more : String} :
    s.pushStr more = some t ↔ t.text = s.text ++ more := by
  rcases t with ⟨text, fits⟩
  unfold pushStr
  constructor
  · intro pushed
    split at pushed
    · rw [some.injEq, mk.injEq] at pushed
      exact pushed.symm
    · contradiction
  · intro same
    simp only at same
    subst same
    rw [dif_pos fits]

/-- Pushing two texts is pushing both at once. -/
theorem pushStr_bind_pushStr {s : Str cap} {more last : String} :
    ((s.pushStr more).bind fun t => t.pushStr last) = s.pushStr (more ++ last) := by
  apply Option.ext
  intro t
  simp only [bind_eq_some_iff, pushStr_eq_some_iff]
  constructor
  · rintro ⟨between, first, second⟩
    rw [second, first, append_assoc]
  · intro both
    rw [← append_assoc] at both
    have fits := t.fits
    rw [both, Text.utf8_append, List.length_append] at fits
    exact ⟨⟨s.text ++ more, le_trans (le_add_right _ _) fits⟩, rfl, both⟩

/-- A text that fits is copied as it is. -/
theorem pushStr_empty {more : String} (fits : (Text.utf8 more).length ≤ cap) :
    (empty : Str cap).pushStr more = some ⟨more, fits⟩ := by
  have text : (empty : Str cap).text ++ more = more := empty_append
  simp [pushStr, text, fits]

end Str

/-- A queue of at most `cap` items. -/
structure Deque (α : Type) (cap : Nat) where
  items : List α
  fits : items.length ≤ cap

namespace Deque

variable {α : Type} {cap : Nat}

/-- The empty queue. -/
def empty : Deque α cap where
  items := []
  fits := zero_le cap

variable (d : Deque α cap)

/-- No further item fits. -/
def isFull : Bool :=
  d.items.length = cap

/-- Drop the oldest item. -/
def popFront : Deque α cap where
  items := d.items.tail
  fits := by
    rw [List.length_tail]
    exact le_trans (sub_le _ 1) d.fits

/-- Add an item at the back. -/
def pushBack (item : α) : Option (Deque α cap) :=
  if room : d.items.length < cap then
    some ⟨d.items ++ [item], by
      rw [List.length_append]
      exact room⟩
  else none

/-- An item always goes into a queue that drops its oldest item when it is full. -/
theorem pushBack_evicted (positive : 1 ≤ cap) (item : α) :
    ∃ next, (if d.isFull then d.popFront else d).pushBack item = some next ∧
      next.items = (if cap ≤ d.items.length then d.items.tail else d.items) ++ [item] := by
  have fits := d.fits
  have full : d.isFull = true ↔ cap ≤ d.items.length := by
    rw [isFull, decide_eq_true_iff]
    omega
  by_cases room : cap ≤ d.items.length
  · have left : d.popFront.items.length < cap := by
      rw [popFront, List.length_tail]
      omega
    rw [if_pos (full.mpr room), if_pos room, pushBack, dif_pos left]
    exact ⟨_, rfl, rfl⟩
  · rw [if_neg (mt full.mp room), if_neg room, pushBack, dif_pos (lt_of_not_ge room)]
    exact ⟨_, rfl, rfl⟩

end Deque

/-- A map of at most `cap` entries. -/
structure Map (κ β : Type) (cap : Nat) where
  entries : List (κ × β)
  fits : entries.length ≤ cap

namespace Map

variable {κ β : Type} [DecidableEq κ] {cap : Nat}

/-- The empty map. -/
def empty : Map κ β cap where
  entries := []
  fits := zero_le cap

/-- Set the value of a key.  A new key needs room. -/
def insert (key : κ) (value : β) (map : Map κ β cap) : Option (Map κ β cap) :=
  if fits : (AssocMap.insert key value map.entries).length ≤ cap then
    some ⟨AssocMap.insert key value map.entries, fits⟩
  else none

theorem insert_eq_some_iff {key : κ} {value : β} {map next : Map κ β cap} :
    map.insert key value = some next ↔
      next.entries = AssocMap.insert key value map.entries := by
  rcases next with ⟨entries, fits⟩
  unfold insert
  constructor
  · intro inserted
    split at inserted
    · rw [some.injEq, mk.injEq] at inserted
      exact inserted.symm
    · contradiction
  · intro same
    simp only at same
    subst same
    rw [dif_pos fits]

end Map

end TrustForge.Bounded
