import AirMonitor.Output.Mux

/-!
Requests to the multiplexer, one after the other, and what happens while they are
served. A message that waits for a buffer may run tasks meanwhile.
-/
namespace AirMonitor.Output
variable {B L Q : Nat} {τ : Type}

/-- The output before any request. -/
def start (settings : MuxSettings) (outlets : τ) : Output B L Q τ := { mux := .ofSettings settings, outlets }

/-- The tasks that were run since, in order. -/
def ranSince (o p : Output B L Q τ) : List Executed :=
  (p.executed.take (p.executed.length - o.executed.length)).reverse

theorem ranSince_self {o p : Output B L Q τ} (executed : p.executed = o.executed) : ranSince o p = [] := by
  simp [ranSince, executed]

variable [Outlets τ]

/-- What a user of the multiplexer may ask for. -/
inductive Request
  /-- A message that waits for a buffer; at each turn of the wait so many tasks are run. -/
  | emit (relax : List Nat) (message : Bytes)
  | tryEmit (message : Bytes)
  | requestSleep (deadline : Instant)
  | configure (settings : MuxSettings)
  | setFairness (fairness : Fairness)
  | process
  | processAll

inductive Reply
  | emitted (e : Emitted)
  | refused (e : MuxError)
  /-- The wait has not ended. -/
  | waiting
  | asleep (accepted : Bool)
  | settled
  | ran (e : Option Executed)
  | counted (n : Nat)
deriving DecidableEq

/-- The hooks of a wait that runs tasks. -/
def relaxing (relax : List Nat) : List (Hook B L Q τ) := relax.map fun count o => (o.processUpTo count).2

/-- Serves a request. -/
def answer (request : Request) (o : Output B L Q τ) : Reply × Output B L Q τ :=
  match request with
  | .emit relax message =>
    let waited := o.emitWith (relaxing relax) message
    (waited.result.elim .waiting .emitted, waited.state)
  | .tryEmit message =>
    let waited := o.tryEmit message
    (waited.result.elim .waiting fun | .ok e => .emitted e | .error e => .refused e, waited.state)
  | .requestSleep deadline =>
    let waited := o.requestSleep deadline
    (waited.result.elim .waiting .asleep, waited.state)
  | .configure settings => (.settled, o.configure settings)
  | .setFairness fairness => (.settled, o.setFairness fairness)
  | .process => (.ran o.process.1, o.process.2)
  | .processAll => (.counted o.processAll.1, o.processAll.2)

/-- The output after a run of requests. -/
def answerAll : List Request → Output B L Q τ → Output B L Q τ
  | [], o => o
  | request :: requests, o => answerAll requests (o.answer request).2

/-- What may happen while requests are served. -/
inductive Event
  | accepted (message : Bytes) (emitted : Emitted)
  | ran (executed : Executed)
  | dozed (deadline : Instant)
  | settled (settings : MuxSettings)

/-- What happens while a request is served, in order. A message that waits is accepted at the end. -/
def events (request : Request) (o : Output B L Q τ) : List Event :=
  (ranSince o (o.answer request).2).map .ran ++
    match request, (o.answer request).1 with
    | .emit _ message, .emitted e => [.accepted message e]
    | .tryEmit message, .emitted e => [.accepted message e]
    | .requestSleep deadline, .asleep true => [.dozed deadline]
    | .configure settings, _ => [.settled settings]
    | .setFairness fairness, _ => [.settled { o.mux.settings with fairness }]
    | _, _ => []

/-- What happens in a run of requests. -/
def history : List Request → Output B L Q τ → List Event
  | [], _ => []
  | request :: requests, o => o.events request ++ history requests (o.answer request).2

end AirMonitor.Output
