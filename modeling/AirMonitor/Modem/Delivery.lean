import AirMonitor.Modem.Session

/-!
Serving and sending. To send, the length of the payload is announced to a peer's
link, and then the payload goes out as it is, with nothing in between. Peers are
served in turn, and the first failure ends the round.
-/
namespace AirMonitor

/-- A round of sending that did not reach all peers. -/
structure SendFailure where
  /-- How many peers were not reached, the failing one among them. -/
  unreached : Nat
  cause : ModemError
deriving DecidableEq, Repr

def SendFailure.message (f : SendFailure) : String :=
  Numeral.decimal f.unreached ++ " peer(s) not reached: " ++ f.cause.message

/-- Whom a payload goes to. -/
inductive Peers
  /-- All peers in the connection table. -/
  | known
  /-- The first link alone, for a session that never read the table. -/
  | firstLink
deriving DecidableEq, Repr

namespace Session
variable {σ : Type} [Board σ]

/-- Lets several connections be open and starts to listen. -/
def startServer (serverPort : UInt16) (s : Session σ) : Except ModemError Unit × Session σ :=
  match s.exchange "AT+CIPMUX=1" with
  | (.error e, s) => (.error (.comm e), s)
  | (.ok _, s) =>
    match s.exchange ("AT+CIPSERVER=1," ++ Numeral.decimal serverPort.toNat) with
    | (.error e, s) => (.error (.comm e), s)
    | (.ok _, s) =>
      let flags := s.state.flags.insert (.union .muxOn .serverOn)
      let s := { s with state := { s.state with flags, serverPort } }
      (.ok (), s.note .info ["server listening on ", Numeral.decimal serverPort.toNat])

/-- The links that a payload goes to. -/
def targets (peers : Peers) (state : ModemState) : List UInt8 :=
  match peers with
  | .known => state.clients.map Client.link
  | .firstLink => [0]

/-- The longest announcement of a payload in bytes. -/
def announcementRoom : Nat := 32

/-- The announcement of a payload; it names the link where several connections may be open. -/
def announcement (mux : Bool) (link : UInt8) (size : Nat) : String :=
  if mux then "AT+CIPSEND=" ++ Numeral.decimal link.toNat ++ "," ++ Numeral.decimal size
  else "AT+CIPSEND=" ++ Numeral.decimal size

/-- Announces a payload to a link and sends it. -/
def sendTo (mux : Bool) (payload : Bytes) (link : UInt8) (s : Session σ) : Except ModemError Unit × Session σ :=
  let announcement := announcement mux link payload.length
  if announcementRoom < (Utf8.encode announcement).length then (.error (.comm .commandTooLong), s)
  else
    match s.exchange announcement with
    | (.error e, s) => (.error (.comm e), s)
    | (.ok _, s) =>
      match s.channel.exchangeBytes payload s.timing.commandTimeout with
      | (.error e, channel) => (.error (.comm e), { s with channel })
      | (.ok _, channel) => (.ok (), { s with channel })

/-- Sends a payload to links in turn. -/
def sendToAll (mux : Bool) (payload : Bytes) : List UInt8 → Session σ → Except SendFailure Unit × Session σ
  | [], s => (.ok (), s)
  | link :: links, s =>
    match s.sendTo mux payload link with
    | (.ok (), s) => sendToAll mux payload links s
    | (.error cause, s) =>
      (.error ⟨links.length + 1, cause⟩,
        s.note .warn ["send to link ", Numeral.decimal link.toNat, " failed: ", cause.message])

/-- Sends a payload to peers and counts those reached. An empty payload goes to nobody. -/
def send (payload : Bytes) (peers : Peers) (s : Session σ) : Except SendFailure Nat × Session σ :=
  if payload.isEmpty then (.ok 0, s)
  else
    let links := targets peers s.state
    match s.sendToAll (s.state.flags.contains .muxOn) payload links with
    | (.ok (), s) => (.ok links.length, s)
    | (.error failure, s) => (.error failure, s)

end Session
end AirMonitor
