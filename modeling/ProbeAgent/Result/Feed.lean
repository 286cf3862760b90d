/-!
# Feeds of events

A subscriber has the events since it last looked, at most 256 of them; of older ones it only knows
how many it missed.
-/

namespace ProbeAgent

structure Feed (α : Type) where
  -- Oldest first.
  pending : List α
  missed : Nat

namespace Feed

variable {α : Type}

/-- How many events a subscriber can fall behind. -/
def capacity : Nat := 256

def empty : Feed α := ⟨[], 0⟩

def push (feed : Feed α) (event : α) : Feed α :=
  let pending := feed.pending ++ [event]
  if capacity < pending.length then ⟨pending.drop 1, feed.missed + 1⟩
  else ⟨pending, feed.missed⟩

end Feed

end ProbeAgent
