import AirMonitor.Sync.Wait

/-!
A value that one holder at a time may use.
-/
namespace AirMonitor

/-- A value and whether someone holds it. -/
structure Guarded (α : Type) where
  value : α
  held : Bool := false

namespace Guarded
variable {α : Type}

/-- Takes hold of the value, unless someone holds it. -/
def lock? (g : Guarded α) : Option (Guarded α) := if g.held then none else some { g with held := true }

/-- Lets go of the value. -/
def unlock (g : Guarded α) : Guarded α := { g with held := false }

/-- Takes hold of the value, running a hook whenever someone holds it. -/
def lockWith (hooks : List (Guarded α → Guarded α)) (g : Guarded α) : Waited (Guarded α) Unit :=
  wait (fun g => g.lock?.map ((), ·)) hooks g

/-- Uses the value and lets go of it. -/
def modify (f : α → α) (g : Guarded α) : Guarded α := { g with value := f g.value, held := false }

end Guarded
end AirMonitor
