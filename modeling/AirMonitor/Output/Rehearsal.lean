import AirMonitor.Board.Basic
import AirMonitor.Output.Sink

/-!
Outlets for a rehearsal: the sinks answer from a script, accept everything once the
script has ended, and remember what they were sent. The clock is that of a board.
-/
namespace AirMonitor

structure Rehearsal (σ : Type) where
  board : σ
  /-- The answers of the console to come. -/
  console : List (Except SinkError Unit) := []
  /-- The answers of the wifi sink to come. -/
  wifi : List (Except SinkError Unit) := []
  /-- What was sent, the newest first. -/
  sent : List (SinkId × Bytes) := []

namespace Rehearsal
variable {σ : Type}

/-- Takes the next answer of a sink. -/
def send (sink : SinkId) (payload : Bytes) (r : Rehearsal σ) : Except SinkError Unit × Rehearsal σ :=
  let r := { r with sent := (sink, payload) :: r.sent }
  match sink with
  | .console => (r.console.headD (.ok ()), { r with console := r.console.tail })
  | .wifi => (r.wifi.headD (.ok ()), { r with wifi := r.wifi.tail })

/-- The payloads that a sink was sent, in order. -/
def sentTo (sink : SinkId) (r : Rehearsal σ) : List Bytes :=
  r.sent.reverse.filterMap fun (s, payload) => if s = sink then some payload else none

instance [Board σ] : Outlets (Rehearsal σ) where
  send := Rehearsal.send
  sleepUntil deadline r := { r with board := Board.sleepUntil deadline r.board }

end Rehearsal
end AirMonitor
