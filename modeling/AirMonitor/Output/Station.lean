import AirMonitor.Output.Sink
import AirMonitor.Status

/-!
The two sinks of a node. The console takes messages while a terminal is attached;
a write that fails detaches it, and a key attaches it again. The wifi sink sends to
all known peers while one of them has connected to the server, and shows in the
status whether the last round failed.
-/
namespace AirMonitor

/-- A session and the status that its sinks report to. -/
structure Station (σ : Type) where
  session : Session σ
  status : StatusFlags := .ok

namespace Station
variable {σ : Type} [Board σ]

def board (s : Station σ) : σ := s.session.board

def onBoard (f : σ → σ) (s : Station σ) : Station σ := { s with session := s.session.onBoard f }

def now (s : Station σ) : Instant := Board.now s.board

/-! ### The console -/

/-- Writes a message to the console. -/
def sendConsole (payload : Bytes) (s : Station σ) : Except SinkError Unit × Station σ :=
  if s.status.contains .consoleConnected then
    let (sent, board) := Board.transmit .console payload s.board
    let s := s.onBoard fun _ => board
    if sent then (.ok (), s)
    else (.error .serial, { s with status := s.status.remove .consoleConnected })
  else (.error .notConnected, s)

/-- Attaches the console if a byte has come from it, and tells whether it is attached. -/
def pollAttach (s : Station σ) : Bool × Station σ :=
  if s.status.contains .consoleConnected then (true, s)
  else
    match Board.receive .console .boot s.board with
    | (none, board) => (false, s.onBoard fun _ => board)
    | (some _, board) =>
      let (_, board) := Board.discard .console board
      (true, { s.onBoard fun _ => board with status := s.status.insert .consoleConnected })

/-! ### WiFi -/

/-- Sends a message to all peers. -/
def sendWifi (payload : Bytes) (s : Station σ) : Except SinkError Unit × Station σ :=
  if s.session.state.flags.contains .clientConnected then
    match s.session.send payload .known with
    | (.ok _, session) => (.ok (), { s with session, status := s.status.remove .wifiFailed })
    | (.error failure, session) =>
      (.error (.wifi failure), { s with session, status := s.status.insert .wifiFailed })
  else (.error .notConnected, s)

instance : Outlets (Station σ) where
  send
    | .console => sendConsole
    | .wifi => sendWifi
  sleepUntil deadline s := s.onBoard (Board.sleepUntil deadline)

end Station
end AirMonitor
