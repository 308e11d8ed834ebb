/-!
The ring that hands tasks over from the producer to the consumer, first in, first
out. Its indices are 32-bit words that wrap around, so the number of slots has to
divide 2^32.
-/
namespace AirMonitor

/-- A ring of `Q` handles. -/
structure HandoffRing (Q : Nat) where
  slots : Vector UInt16 Q := Vector.replicate Q 0
  /-- The handles pushed so far. -/
  pushed : UInt32 := 0
  /-- The handles popped so far. -/
  popped : UInt32 := 0
deriving DecidableEq, Repr

namespace HandoffRing
variable {Q : Nat}

def slot (Q : Nat) (index : UInt32) : Nat := index.toNat % Q

/-- The number of handles in the ring. -/
def length (r : HandoffRing Q) : Nat := (r.pushed - r.popped).toNat

def isEmpty (r : HandoffRing Q) : Bool := r.length = 0

/-- Adds a handle, if there is room. -/
def push? (handle : UInt16) (r : HandoffRing Q) : Option (HandoffRing Q) :=
  if Q ≤ r.length then none
  else some { r with slots := r.slots.setIfInBounds (slot Q r.pushed) handle, pushed := r.pushed + 1 }

/-- Takes the oldest handle. -/
def pop? (r : HandoffRing Q) : Option (UInt16 × HandoffRing Q) :=
  if r.popped = r.pushed then none
  else some (r.slots[slot Q r.popped]?.getD 0, { r with popped := r.popped + 1 })

end HandoffRing
end AirMonitor
