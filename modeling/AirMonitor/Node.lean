import AirMonitor.Log.Drain
import AirMonitor.Modem.Refresh
import AirMonitor.Output.Mux
import AirMonitor.Output.Station
import AirMonitor.Telemetry.Frame

/-!
A whole node. The sampling side refreshes the status and emits frames; the output
side runs the multiplexer's tasks, polls the console and drains the logs. Both work
on one board.
-/
namespace AirMonitor

/-- The buffers of the firmware's multiplexer. -/
def bufferCount : Nat := 20

/-- The bytes of each buffer; a frame fits exactly. -/
def bufferLength : Nat := Frame.textRoom

/-- The task slots of the firmware's multiplexer. -/
def taskSlots : Nat := 64

structure Node (B L Q : Nat) (σ : Type) where
  output : Output B L Q (Station σ)
  /-- The log of the output side. The sampling side logs to its session. -/
  ioLog : NodeLog := {}
  drain : LogDrain := {}

namespace Node
variable {B L Q : Nat} {σ : Type} [Board σ]

def station (n : Node B L Q σ) : Station σ := n.output.outlets
def now (n : Node B L Q σ) : Instant := n.station.now
def samplerLog (n : Node B L Q σ) : NodeLog := n.station.session.channel.log

/-- Does something with the sinks and what is behind them. -/
def onStation {α : Type} (f : Station σ → α × Station σ) (n : Node B L Q σ) : α × Node B L Q σ :=
  let (a, outlets) := f n.output.outlets
  (a, { n with output := { n.output with outlets } })

/-- Does something with the session. -/
def onSession {α : Type} (f : Session σ → α × Session σ) (n : Node B L Q σ) : α × Node B L Q σ :=
  n.onStation fun s =>
    let (a, session) := f s.session
    (a, { s with session })

/-- Does something with the status. -/
def onStatus (f : StatusFlags → StatusFlags) (n : Node B L Q σ) : Node B L Q σ :=
  (n.onStation fun s => ((), { s with status := f s.status })).2

/-- Does something with the multiplexer. -/
def onOutput {α : Type} (f : Output B L Q (Station σ) → α × Output B L Q (Station σ)) (n : Node B L Q σ) :
    α × Node B L Q σ :=
  let (a, output) := f n.output
  (a, { n with output })

/-! ### Sampling -/

/-- Refreshes what is known of the co-processor and shows it in the status. -/
def refreshStatus (n : Node B L Q σ) : Except ModemError ModemFlags × Node B L Q σ :=
  match n.onSession Session.refresh with
  | (.ok flags, n) => (.ok flags, n.onStatus (·.showLinks flags))
  | (.error e, n) => (.error e, n.onStatus (·.insert .wifiDisconnected))

/-- A frame that was made and, if it fits, handed to the multiplexer. -/
structure Sampled (B L Q : Nat) (σ : Type) where
  /-- After each reading, how many the frame had or why the reading was refused. -/
  added : List (Except TelemetryError Nat)
  text : Except TelemetryError String
  /-- What became of the text; none if there is none or the producer is still waiting. -/
  emitted : Option Emitted
  node : Node B L Q σ

/-- Makes a frame of readings, with the present time and status, and emits it. -/
def sample (readings : List Reading) (n : Node B L Q σ) : Sampled B L Q σ :=
  let (added, frame) := Frame.addAll readings { status := n.station.status, time := n.now }
  match frame.render with
  | .error e => ⟨added, .error e, none, n⟩
  | .ok text =>
    let waited := n.output.emit (Utf8.encode text)
    ⟨added, .ok text, waited.result, { n with output := waited.state }⟩

/-! ### Logs -/

/-- Logs to the sampling side. -/
def logSampler (level : LogLevel) (pieces : List String) (n : Node B L Q σ) : Node B L Q σ :=
  (n.onSession fun s => ((), s.note level pieces)).2

/-- Logs to the output side. -/
def logIo (level : LogLevel) (pieces : List String) (n : Node B L Q σ) : Node B L Q σ :=
  { n with ioLog := (n.ioLog.log n.now level pieces).2 }

/-- Drains both logs to the console and counts the entries. -/
def pump (most : LogLevel) (n : Node B L Q σ) : Nat × Node B L Q σ :=
  let pumped := n.drain.pump .console n.now most [n.samplerLog, n.ioLog] n.station.board
  let n := { n with drain := pumped.drain }
  let (_, n) := n.onStation fun s => ((), s.onBoard fun _ => pumped.board)
  match pumped.streams with
  | [log, ioLog] =>
    let (_, n) := n.onSession fun s => ((), { s with channel := { s.channel with log } })
    (pumped.consumed, { n with ioLog })
  | _ => (pumped.consumed, n)

end Node
end AirMonitor
