import AirMonitor.Output.Sink

/-!
Output tasks, and how far their priorities may reorder them.
-/
namespace AirMonitor

/-- How far priority may reorder pending tasks. -/
inductive Fairness
  /-- As far as it says. -/
  | strict
  /-- A task is passed at most this many times. -/
  | bounded (limit : UInt8)
deriving DecidableEq, Repr

namespace Fairness

def standard : Fairness := bounded 8

/-- A limit of zero means no limit. -/
def ofLimit (limit : UInt8) : Fairness := if limit = 0 then strict else bounded limit

end Fairness

/-- What a task does. -/
inductive Action
  /-- Sends a buffer to a sink and gives the sink's permit back. -/
  | send (sink : SinkId) (buffer : UInt16)
  /-- Waits until the deadline. -/
  | sleepUntil (deadline : Instant)
deriving DecidableEq, Repr

structure Task where
  action : Action
  /-- Smaller runs first. -/
  priority : UInt8
  /-- The place in the order of emission. -/
  seq : UInt32
  /-- How often a later task was put ahead of this one; 255 means that or more. -/
  bypassed : UInt8 := 0
deriving DecidableEq, Repr

namespace Task

def isSleep (t : Task) : Bool :=
  match t.action with
  | .sleepUntil _ => true
  | .send _ _ => false

/-- What a slot holds before its first task. -/
def idle : Task := { action := .sleepUntil .boot, priority := 255, seq := 0 }

/-- The task after one more bypass. Sleep is meant to run last and is not charged. -/
def bypass (t : Task) : Task :=
  if t.isSleep then t else { t with bypassed := .ofNat (min 255 (t.bypassed.toNat + 1)) }

/-- The task may not be passed any more. -/
def isSaturated (fairness : Fairness) (t : Task) : Bool :=
  match fairness with
  | .strict => false
  | .bounded limit => !t.isSleep && decide (limit ≤ t.bypassed)

end Task
end AirMonitor
