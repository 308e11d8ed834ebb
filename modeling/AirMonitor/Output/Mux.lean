import AirMonitor.Output.Arena
import AirMonitor.Output.Pool
import AirMonitor.Output.Ring

/-!
The output multiplexer. A message is copied into a buffer of the pool once and
becomes one task for each sink. The tasks go through the ring to the arena, which
orders them, and are run one at a time; whatever a sink answers, its permit on the
buffer and the task's slot are given back. A producer waits while there is no free
buffer and drops nothing.
-/
namespace AirMonitor

structure MuxSettings where
  consolePriority : UInt8 := 4
  wifiPriority : UInt8 := 3
  sleepPriority : UInt8 := 10
  fairness : Fairness := .standard
deriving DecidableEq, Repr

/-- Why a message was refused. -/
inductive MuxError
  | poolExhausted
deriving DecidableEq, Repr

def MuxError.message : MuxError → String
  | poolExhausted => "all output buffers are in use"

def MuxError.code : MuxError → String
  | poolExhausted => "X01"

/-- A message that was accepted. -/
structure Emitted where
  buffer : UInt16
  seq : UInt32
  /-- Only as much of it was kept as the buffer holds. -/
  truncated : Bool
deriving DecidableEq, Repr

/-- What became of a task. -/
inductive Outcome
  | delivered
  | failed (e : SinkError)
  | slept
deriving DecidableEq, Repr

/-- A task that was run. -/
structure Executed where
  task : Task
  outcome : Outcome
deriving DecidableEq, Repr

/-- A multiplexer of `B` buffers of `L` bytes and `Q` task slots. -/
structure Mux (B L Q : Nat) where
  pool : BufferPool B L
  ring : HandoffRing Q
  arena : TaskArena Q
  consolePriority : UInt8
  wifiPriority : UInt8
  sleepPriority : UInt8
  /-- A sleep was asked for and has not run. -/
  sleepPending : Bool
  nextSeq : UInt32

namespace Mux
variable {B L Q : Nat}

/-- A multiplexer without messages. The slots have to cover two tasks a buffer and a sleep. -/
def ofSettings (s : MuxSettings) : Mux B L Q where
  pool := {}
  ring := {}
  arena := .ofFairness s.fairness
  consolePriority := s.consolePriority
  wifiPriority := s.wifiPriority
  sleepPriority := s.sleepPriority
  sleepPending := false
  nextSeq := 0

def setFairness (fairness : Fairness) (m : Mux B L Q) : Mux B L Q := { m with arena := { m.arena with fairness } }

/-- Applies settings; tasks that are pending keep their priority. -/
def configure (s : MuxSettings) (m : Mux B L Q) : Mux B L Q :=
  { m.setFairness s.fairness with
    consolePriority := s.consolePriority, wifiPriority := s.wifiPriority, sleepPriority := s.sleepPriority }

def settings (m : Mux B L Q) : MuxSettings :=
  ⟨m.consolePriority, m.wifiPriority, m.sleepPriority, m.arena.fairness⟩

def priorityOf (m : Mux B L Q) : SinkId → UInt8
  | .console => m.consolePriority
  | .wifi => m.wifiPriority

/-- The number of free buffers. -/
def available (m : Mux B L Q) : Nat := m.pool.available

/-- The slots without a task. -/
def freeTasks (m : Mux B L Q) : Nat := m.arena.freeCount

/-- The tasks waiting to run. -/
def pendingTasks (m : Mux B L Q) : Nat := m.ring.length + m.arena.pendingCount

/-- Takes a free buffer for a message. -/
def lease? (message : Bytes) (m : Mux B L Q) : Option (Leased × Mux B L Q) :=
  (m.pool.lease? message).map fun (leased, pool) => (leased, { m with pool })

/-- Takes a free slot for a task. -/
def alloc? (task : Task) (m : Mux B L Q) : Option (UInt16 × Mux B L Q) :=
  (m.arena.alloc? task).map fun (handle, arena) => (handle, { m with arena })

/-- Hands a task over. -/
def push? (handle : UInt16) (m : Mux B L Q) : Option (Unit × Mux B L Q) :=
  (m.ring.push? handle).map fun ring => ((), { m with ring })

/-- Numbers the next task or message. -/
def takeSeq (m : Mux B L Q) : UInt32 × Mux B L Q := (m.nextSeq, { m with nextSeq := m.nextSeq + 1 })

/-- Puts at most `count` tasks from the ring into order. -/
def collect : Nat → Mux B L Q → Mux B L Q
  | 0, m => m
  | count + 1, m =>
    match m.ring.pop? with
    | none => m
    | some (handle, ring) => collect count { m with ring, arena := m.arena.insert handle }

/-- Takes the task to run next. -/
def next? (m : Mux B L Q) : Option (UInt16 × Task) × Mux B L Q :=
  let m := m.collect m.ring.length
  match m.arena.pop? with
  | none => (none, m)
  | some (head, arena) => (some head, { m with arena })

end Mux

/-- A multiplexer, the outlets it serves, and the tasks it ran, the newest first. -/
structure Output (B L Q : Nat) (τ : Type) where
  mux : Mux B L Q
  outlets : τ
  executed : List Executed := []

namespace Output
variable {B L Q : Nat} {τ : Type} [Outlets τ]

/-! ### Running tasks -/

/-- Runs a task. A buffer on which the sink has no permit is delivered to nobody. -/
def run (task : Task) (o : Output B L Q τ) : Outcome × Output B L Q τ :=
  match task.action with
  | .send sink buffer =>
    let release (o : Output B L Q τ) : Output B L Q τ :=
      { o with mux := { o.mux with pool := (o.mux.pool.release buffer sink).2 } }
    match o.mux.pool.payload? buffer sink with
    | none => (.failed .notConnected, release o)
    | some payload =>
      let (result, outlets) := Outlets.send sink payload o.outlets
      let outcome : Outcome :=
        match result with
        | .ok () => .delivered
        | .error e => .failed e
      (outcome, release { o with outlets })
  | .sleepUntil deadline =>
    (.slept, { o with
      outlets := Outlets.sleepUntil deadline o.outlets, mux := { o.mux with sleepPending := false } })

/-- Runs the most urgent task, if there is one. -/
def process (o : Output B L Q τ) : Option Executed × Output B L Q τ :=
  match o.mux.next? with
  | (none, mux) => (none, { o with mux })
  | (some (handle, task), mux) =>
    let (outcome, o) := { o with mux }.run task
    let executed : Executed := ⟨task, outcome⟩
    (some executed, { o with
      mux := { o.mux with arena := o.mux.arena.free handle }, executed := executed :: o.executed })

/-- Runs at most `limit` tasks and counts them. -/
def processUpTo : Nat → Output B L Q τ → Nat × Output B L Q τ
  | 0, o => (0, o)
  | limit + 1, o =>
    match o.process with
    | (none, o) => (0, o)
    | (some _, o) =>
      let (count, o) := processUpTo limit o
      (count + 1, o)

/-- Runs all tasks and counts them. Running a task makes no new ones. -/
def processAll (o : Output B L Q τ) : Nat × Output B L Q τ := o.processUpTo o.mux.pendingTasks

/-! ### Producing -/

/-- Something that a producer may do while it waits. -/
abbrev Hook (B L Q : Nat) (τ : Type) := Output B L Q τ → Output B L Q τ

/-- Applies a step of the multiplexer, if it can be taken. -/
def attempt {β : Type} (f : Mux B L Q → Option (β × Mux B L Q)) (o : Output B L Q τ) :
    Option (β × Output B L Q τ) :=
  (f o.mux).map fun (b, mux) => (b, { o with mux })

/-- Queues a task, waiting for a slot and for room in the ring. -/
def enqueue (hooks : List (Hook B L Q τ)) (task : Task) (o : Output B L Q τ) : Waited (Output B L Q τ) Unit :=
  let slot := wait (attempt (Mux.alloc? task)) hooks o
  match slot.result with
  | none => ⟨none, slot.state, slot.unused⟩
  | some handle => wait (attempt (Mux.push? handle)) slot.unused slot.state

/-- Queues the tasks of a message for sinks in turn. -/
def enqueueFor (hooks : List (Hook B L Q τ)) (buffer : UInt16) (seq : UInt32) :
    List SinkId → Output B L Q τ → Waited (Output B L Q τ) Unit
  | [], o => ⟨some (), o, hooks⟩
  | sink :: sinks, o =>
    let queued := o.enqueue hooks { action := .send sink buffer, priority := o.mux.priorityOf sink, seq }
    match queued.result with
    | none => queued
    | some () => enqueueFor queued.unused buffer seq sinks queued.state

/-- Queues a leased buffer for all sinks. -/
def dispatch (hooks : List (Hook B L Q τ)) (leased : Leased) (o : Output B L Q τ) :
    Waited (Output B L Q τ) Emitted :=
  let (seq, mux) := o.mux.takeSeq
  let queued := { o with mux }.enqueueFor hooks leased.index seq SinkId.all
  ⟨queued.result.map fun () => ⟨leased.index, seq, leased.truncated⟩, queued.state, queued.unused⟩

/-- Queues a message for all sinks, running a hook whenever there is no free buffer or slot. -/
def emitWith (hooks : List (Hook B L Q τ)) (message : Bytes) (o : Output B L Q τ) :
    Waited (Output B L Q τ) Emitted :=
  let leased := wait (attempt (Mux.lease? message)) hooks o
  match leased.result with
  | none => ⟨none, leased.state, leased.unused⟩
  | some buffer => leased.state.dispatch leased.unused buffer

/-- The hook that runs one task. -/
def serve : Hook B L Q τ := fun o => o.process.2

/-- Queues a message for all sinks and runs tasks while there is no free buffer. -/
def emit (message : Bytes) (o : Output B L Q τ) : Waited (Output B L Q τ) Emitted :=
  o.emitWith (List.replicate o.mux.pendingTasks serve) message

/-- Queues a message for all sinks, unless all buffers are in use. -/
def tryEmit (message : Bytes) (o : Output B L Q τ) : Waited (Output B L Q τ) (Except MuxError Emitted) :=
  match attempt (Mux.lease? message) o with
  | none => ⟨some (.error .poolExhausted), o, []⟩
  | some (leased, o) =>
    let emitted := o.dispatch [] leased
    ⟨emitted.result.map .ok, emitted.state, emitted.unused⟩

/-- Asks for a sleep until a deadline; refused while another is to come. -/
def requestSleep (deadline : Instant) (o : Output B L Q τ) : Waited (Output B L Q τ) Bool :=
  if o.mux.sleepPending then ⟨some false, o, []⟩
  else
    let (seq, mux) := { o.mux with sleepPending := true }.takeSeq
    let queued := { o with mux }.enqueue []
      { action := .sleepUntil deadline, priority := o.mux.sleepPriority, seq }
    ⟨queued.result.map fun () => true, queued.state, queued.unused⟩

/-- Applies settings. -/
def configure (s : MuxSettings) (o : Output B L Q τ) : Output B L Q τ := { o with mux := o.mux.configure s }

def setFairness (fairness : Fairness) (o : Output B L Q τ) : Output B L Q τ :=
  { o with mux := o.mux.setFairness fairness }

end Output
end AirMonitor
