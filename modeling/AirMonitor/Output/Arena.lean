import AirMonitor.Output.Task

/-!
A fixed arena of `Q` task slots, linked by index. A slot is on the free list, in
flight, or on the pending list, which is kept in execution order. A new task goes
in front of the first task of a larger priority number that stands behind the last
saturated one, and every task it passes is charged one bypass; without such a task
it goes to the end.
-/
namespace AirMonitor

/-- A task and the slot after its own in the list. -/
structure TaskSlot where
  task : Task
  next : UInt16
deriving DecidableEq, Repr

/-- The link that leads nowhere. Arenas have fewer slots than this. -/
def noSlot : UInt16 := 65535

structure TaskArena (Q : Nat) where
  slots : Vector TaskSlot Q
  freeHead : UInt16
  freeCount : Nat
  pendingHead : UInt16
  pendingCount : Nat
  fairness : Fairness
deriving DecidableEq, Repr

namespace TaskArena
variable {Q : Nat}

/-- An arena in which all slots are free. -/
def ofFairness (fairness : Fairness) : TaskArena Q where
  slots := Vector.ofFn fun i => ⟨.idle, if i.val + 1 < Q then .ofNat (i.val + 1) else noSlot⟩
  freeHead := 0
  freeCount := Q
  pendingHead := noSlot
  pendingCount := 0
  fairness

def slot (a : TaskArena Q) (handle : UInt16) : TaskSlot := (a.slots[handle.toNat]?).getD ⟨.idle, noSlot⟩

def setSlot (a : TaskArena Q) (handle : UInt16) (s : TaskSlot) : TaskArena Q :=
  { a with slots := a.slots.setIfInBounds handle.toNat s }

/-! ### Allocation -/

/-- Takes a free slot for a task. -/
def alloc? (task : Task) (a : TaskArena Q) : Option (UInt16 × TaskArena Q) :=
  let handle := a.freeHead
  if handle = noSlot then none
  else
    some (handle, { a.setSlot handle ⟨task, noSlot⟩ with
      freeHead := (a.slot handle).next, freeCount := a.freeCount - 1 })

/-- Gives a slot back. -/
def free (handle : UInt16) (a : TaskArena Q) : TaskArena Q :=
  { a.setSlot handle { a.slot handle with next := a.freeHead } with
    freeHead := handle, freeCount := a.freeCount + 1 }

/-! ### The pending list -/

/-- The slots from one on, at most `limit` of them. -/
def chain (a : TaskArena Q) : Nat → UInt16 → List UInt16
  | 0, _ => []
  | limit + 1, handle => if handle = noSlot then [] else handle :: chain a limit (a.slot handle).next

/-- The pending tasks in execution order. -/
def pending (a : TaskArena Q) : List Task := (a.chain Q a.pendingHead).map fun handle => (a.slot handle).task

/-- Links a slot behind another, or makes it the first if there is no other. -/
def linkAfter (before handle : UInt16) (a : TaskArena Q) : TaskArena Q :=
  if before = noSlot then { a with pendingHead := handle }
  else a.setSlot before { a.slot before with next := handle }

/-- Where a new task goes: between two slots, or behind the last one. -/
inductive Place
  | between (before after : UInt16)
  | last (before : UInt16)
deriving DecidableEq, Repr

/-- Looks along the pending list for the place of a task. `found` is the place
    in front of the first task of a larger priority number so far, which a
    saturated task behind it makes void. -/
def search (a : TaskArena Q) (priority : UInt8) : Nat → Option (UInt16 × UInt16) → UInt16 → UInt16 → Place
  | 0, some (before, after), _, _ => .between before after
  | 0, none, previous, _ => .last previous
  | limit + 1, found, previous, current =>
    if current = noSlot then
      match found with
      | some (before, after) => .between before after
      | none => .last previous
    else
      let s := a.slot current
      let found := if found.isNone && decide (priority < s.task.priority) then some (previous, current) else found
      let found := if s.task.isSaturated a.fairness then none else found
      a.search priority limit found current s.next

/-- Charges a bypass to the tasks from a slot on. -/
def charge : Nat → UInt16 → TaskArena Q → TaskArena Q
  | 0, _, a => a
  | limit + 1, handle, a =>
    if handle = noSlot then a
    else
      let s := a.slot handle
      charge limit s.next (a.setSlot handle { s with task := s.task.bypass })

/-- Puts an allocated task into execution order. -/
def insert (handle : UInt16) (a : TaskArena Q) : TaskArena Q :=
  let s := a.slot handle
  let a :=
    match a.search s.task.priority Q none noSlot a.pendingHead with
    | .between before after =>
      charge Q after (linkAfter before handle (a.setSlot handle { s with next := after }))
    | .last before => linkAfter before handle (a.setSlot handle { s with next := noSlot })
  { a with pendingCount := a.pendingCount + 1 }

/-- Takes the next task to run off the pending list. Its slot stays allocated. -/
def pop? (a : TaskArena Q) : Option ((UInt16 × Task) × TaskArena Q) :=
  let handle := a.pendingHead
  if handle = noSlot then none
  else
    let s := a.slot handle
    some ((handle, s.task), { a with pendingHead := s.next, pendingCount := a.pendingCount - 1 })

/-- Takes a free slot for a task and puts the task into execution order. -/
def add? (task : Task) (a : TaskArena Q) : Option (UInt16 × TaskArena Q) :=
  (a.alloc? task).map fun (handle, a) => (handle, a.insert handle)

/-- Takes the next task to run and gives its slot back. -/
def take? (a : TaskArena Q) : Option ((UInt16 × Task) × TaskArena Q) :=
  a.pop?.map fun (head, a) => (head, a.free head.1)

end TaskArena
end AirMonitor
