import TrustForge.Foundation.Transition

/-!
# Ordered channels

The abstract purpose of a secure channel: items are put in at one end and come out at
the other, in order, each at most once and none invented.  An item may look different
to the receiver, or not be readable at all; `view` says how.
-/

namespace TrustForge

open List

/-- What was put into a channel and what came out of it. -/
structure OrderedChannel (α β : Type) where
  sent : List α
  received : List β

namespace OrderedChannel

variable {α β : Type} (view : α → Option β)

/-- An item is put in, or the next item comes out. -/
inductive Step : OrderedChannel α β → OrderedChannel α β → Prop where
  | send (c : OrderedChannel α β) (item : α) : Step c { c with sent := c.sent ++ [item] }
  | receive (c : OrderedChannel α β) (item : α) (seen : β)
      (next : c.sent[c.received.length]? = some item) (readable : view item = some seen) :
      Step c { c with received := c.received ++ [seen] }

/-- What came out is an initial part of what was put in. -/
def InOrder (c : OrderedChannel α β) : Prop :=
  c.received.map some <+: c.sent.map view

variable {view} {c d : OrderedChannel α β}

theorem InOrder.length_le (inOrder : c.InOrder view) : c.received.length ≤ c.sent.length := by
  simpa using List.IsPrefix.length_le inOrder

theorem InOrder.step (inOrder : c.InOrder view) (taken : Step view c d) : d.InOrder view := by
  cases taken with
  | send item =>
    rw [InOrder, map_append]
    exact List.IsPrefix.trans inOrder (prefix_append _ _)
  | receive item seen next readable =>
    rcases inOrder with ⟨rest, split⟩
    -- The next item heads what is still to come.
    have head : rest[0]? = some (some seen) := by
      have found : (c.sent.map view)[c.received.length]? = some (some seen) := by
        rw [List.getElem?_map, next, Option.map_some, readable]
      rw [← split, List.getElem?_append_right (by simp)] at found
      simpa using found
    cases rest with
    | nil => contradiction
    | cons first later =>
      simp only [List.getElem?_cons_zero, Option.some.injEq] at head
      refine ⟨later, ?_⟩
      rw [← split, head, map_append, append_assoc]
      rfl

end OrderedChannel

end TrustForge
