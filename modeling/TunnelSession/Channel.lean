/-
  Bounded channels.

  A channel holds at most `capacity` items and hands them out in the order they came.  Closing it
  refuses further items; those already in it are still handed out.
-/

namespace TunnelSession

/-- A bounded queue that can be closed. -/
structure Channel (α : Type) where
  capacity : Nat
  queue : List α
  closed : Bool

/-- What became of an item that was offered. -/
inductive Channel.Offer where
  | sent
  | full
  | closed
  deriving DecidableEq, Repr

namespace Channel

variable {α : Type}

/-- An empty channel; it has room for one item at least. -/
def make (capacity : Nat) : Channel α := ⟨max capacity 1, [], false⟩

/-- Offer an item.  That the channel is closed is said before that it is full. -/
def offer (c : Channel α) (a : α) : Offer × Channel α :=
  if c.closed then (.closed, c)
  else if c.queue.length < c.capacity then (.sent, { c with queue := c.queue ++ [a] })
  else (.full, c)

/-- Take the oldest item. -/
def take (c : Channel α) : Option (α × Channel α) :=
  match c.queue with
  | [] => none
  | a :: rest => some (a, { c with queue := rest })

/-- Refuse further items. -/
def close (c : Channel α) : Channel α := { c with closed := true }

theorem queue_length_offer_le {c : Channel α} (h : c.queue.length ≤ c.capacity) (a : α) :
    (c.offer a).2.queue.length ≤ (c.offer a).2.capacity := by
  unfold offer
  split
  · exact h
  · split
    · simpa using Nat.succ_le_of_lt (by assumption)
    · exact h

end Channel

end TunnelSession
