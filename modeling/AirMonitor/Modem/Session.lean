import AirMonitor.At.Channel
import AirMonitor.Modem.State

/-!
A session with the co-processor. Bringing it up powers the co-processor, resets it
and probes it until it answers; a probe that times out with a framing fault on the
line is followed by another reset. Commands go out one at a time, and a query is a
command whose answer is read as a document.
-/
namespace AirMonitor

/-- How far bringing up has come. -/
inductive LinkPhase
  | uninitialized
  /-- Powered, and not held in reset. -/
  | armed
  /-- Reset, and being probed. -/
  | awaitingEcho
  | ready
  | initFailed
deriving DecidableEq, Repr

/-- The phase with a number; all other numbers are `uninitialized`. -/
def LinkPhase.ofNumber : Nat → LinkPhase
  | 1 => armed
  | 2 => awaitingEcho
  | 3 => ready
  | 4 => initFailed
  | _ => uninitialized

/-- Deadlines and retries of a session. -/
structure Timing where
  commandTimeout : Duration := .ofSecs 5
  probeTimeout : Duration := .ofSecs 1
  /-- How many probes are sent before giving up; at least one is sent. -/
  attempts : UInt8 := 5
  /-- How long reset is held, in microseconds. -/
  resetHold : UInt32 := 20000
  /-- From the end of the reset to the next probe. -/
  bootDelay : UInt32 := 500000
deriving DecidableEq, Repr

structure Session (σ : Type) where
  channel : At.Channel σ
  timing : Timing := {}
  state : ModemState := {}
  phase : LinkPhase := .uninitialized

namespace Session
variable {σ : Type} [Board σ]

def board (s : Session σ) : σ := s.channel.board

/-- Does something with the board. -/
def onBoard (f : σ → σ) (s : Session σ) : Session σ := { s with channel := { s.channel with board := f s.channel.board } }

def note (level : LogLevel) (pieces : List String) (s : Session σ) : Session σ :=
  { s with channel := s.channel.note level pieces }

/-! ### Bringing up -/

/-- The command that does nothing but get an answer. -/
def probeCommand : String := "AT"

/-- Holds the co-processor in reset for a while and lets it boot. -/
def resetPulse (s : Session σ) : Session σ :=
  s.onBoard fun b =>
    Board.delay s.timing.bootDelay (Board.setReset false (Board.delay s.timing.resetHold (Board.setReset true b)))

/-- How many probes bringing up sends at most. -/
def probeLimit (s : Session σ) : Nat := max 1 s.timing.attempts.toNat

/-- After a probe that failed: resets the co-processor if it timed out on a framing fault. -/
def afterFailedProbe (attempt limit : Nat) (e : At.CommError) (s : Session σ) : Session σ :=
  let (fault, s) :=
    if e = .timeout then
      let (fault, board) := Board.takeFault .modem s.board
      (fault, s.onBoard fun _ => board)
    else (false, s)
  if fault then
    (s.note .warn ["probe ", Numeral.decimal attempt, ": framing fault, resetting modem"]).resetPulse
  else
    s.note .warn ["probe ", Numeral.decimal attempt, "/", Numeral.decimal limit, " failed: ", e.message]

/-- Sends at most `left` of `limit` probes, until one is answered. -/
def probe (limit : Nat) : Nat → Session σ → Except ModemError Unit × Session σ
  | 0, s => (.error (.initFailed limit), { s with phase := .initFailed }.note .error ["modem init failed"])
  | left + 1, s =>
    let attempt := limit - left
    let (result, channel) := s.channel.exchange probeCommand s.timing.probeTimeout
    let s := { s with channel }
    match result with
    | .ok _ =>
      (.ok (), { s with phase := .ready }.note .info ["modem ready after ", Numeral.decimal attempt, " probe(s)"])
    | .error e => probe limit left (s.afterFailedProbe attempt limit e)

/-- Powers, resets and probes the co-processor. -/
def bringUp (s : Session σ) : Except ModemError Unit × Session σ :=
  let s := s.onBoard fun b => Board.setReset false (Board.setEnable true b)
  let s := { s with phase := .armed }.resetPulse
  { s with phase := .awaitingEcho }.probe s.probeLimit s.probeLimit

/-- Switches the co-processor's power. -/
def setEnabled (on : Bool) (s : Session σ) : Session σ :=
  let s := s.onBoard (Board.setEnable on)
  if on then s else { s with phase := .uninitialized }

/-! ### Commands -/

/-- Sends a command and reads the response, without a word in the log. -/
def exchange (command : String) (s : Session σ) : Except At.CommError At.Response × Session σ :=
  let (result, channel) := s.channel.exchange command s.timing.commandTimeout
  (result, { s with channel })

/-- Sends a command and logs a failure. -/
def command (command : String) (s : Session σ) : Except At.CommError At.Response × Session σ :=
  match s.exchange command with
  | (.ok response, s) => (.ok response, s)
  | (.error e, s) => (.error e, s.note .debug [command, ": ", e.message])

/-- Sends a command and reads its answer as a document. -/
def query (command : String) (s : Session σ) : Except ModemError At.Document × Session σ :=
  match s.command command with
  | (.error e, s) => (.error (.comm e), s)
  | (.ok response, s) =>
    let d := response.document
    if d.malformed = 0 ∧ d.dropped = 0 then (.ok d, s)
    else
      (.ok d, s.note .debug [command, ": ", Numeral.decimal d.malformed, " malformed, ",
        Numeral.decimal d.dropped, " dropped line(s)"])

/-- Sends a command and changes the state only if it is accepted. -/
def commit (command : String) (change : ModemState → ModemState) (s : Session σ) : Except ModemError Unit × Session σ :=
  match s.command command with
  | (.error e, s) => (.error (.comm e), s)
  | (.ok _, s) => (.ok (), { s with state := change s.state })

/-! ### Power -/

/-- Asks for light sleep. -/
def sleep (s : Session σ) : Except ModemError Unit × Session σ :=
  s.commit "AT+SLEEP=1" fun state => { state with power := .sleep }

def wake (s : Session σ) : Except ModemError Unit × Session σ :=
  s.commit "AT+SLEEP=0" fun state => { state with power := .awake }

/-- Asks for deep sleep, for at most 2^32 - 1 milliseconds. The co-processor boots when it wakes. -/
def deepSleep (duration : Duration) (s : Session σ) : Except ModemError Unit × Session σ :=
  s.commit ("AT+GSLP=" ++ Numeral.decimal (min duration.millis 0xffffffff))
    fun state => { state with power := .deepSleep }

end Session
end AirMonitor
