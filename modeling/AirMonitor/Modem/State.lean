import AirMonitor.At.Response
import AirMonitor.Modem.Client
import AirMonitor.Modem.Flags

/-!
What a node knows about the co-processor, and how the answers to its queries are
merged into that. An answer that lacks a required field changes nothing.
-/
namespace AirMonitor

/-- Why an operation of a session failed. -/
inductive ModemError
  | comm (cause : At.CommError)
  /-- A required field of an answer is missing or out of range. -/
  | malformed (query : String)
  /-- The co-processor answered none of the probes. -/
  | initFailed (attempts : Nat)
deriving DecidableEq, Repr

namespace ModemError

def message : ModemError → String
  | comm cause => cause.message
  | malformed query => "malformed " ++ query ++ " response"
  | initFailed attempts => "no answer after " ++ Numeral.decimal attempts ++ " probes"

def code : ModemError → String
  | comm cause => cause.code
  | malformed _ => "M01"
  | initFailed _ => "M02"

end ModemError

/-- The power mode that the co-processor accepted last. -/
inductive PowerMode
  | awake
  | sleep
  | deepSleep
deriving DecidableEq, Repr

structure ModemState where
  flags : ModemFlags := .none
  address : String := ""
  gateway : String := ""
  netmask : String := ""
  ssid : String := ""
  /-- Where the server listens, once it is up. -/
  serverPort : UInt16 := 0
  power : PowerMode := .awake
  clients : List Client := []
deriving DecidableEq, Repr

namespace ModemState

/-! ### The queries -/

def stationQuery : String := "AT+CIPSTA?"
def connectionQuery : String := "AT+CIPSTATUS"
def muxQuery : String := "AT+CIPMUX?"
def wifiQuery : String := "AT+CWSTATE?"

/-! ### Merging answers -/

/-- The first text of the line with a preamble. -/
def textOf? (d : At.Document) (preamble : String) : Option String := (d.property? preamble).bind (·.text? 0)

/-- The first number of the line with a preamble. -/
def codeOf? (d : At.Document) (preamble : String) : Option Int := (d.property? preamble).bind (·.int? 0)

/-- The station has no address. -/
def stationDown (s : ModemState) : ModemState :=
  { s with flags := s.flags.remove .wifiConnected, address := "", gateway := "", netmask := "" }

/-- Merges the station's address. Without an address or a gateway, or with the
    unspecified address, the station is down. -/
def mergeStation (d : At.Document) (s : ModemState) : ModemState :=
  match textOf? d "ip", textOf? d "gateway" with
  | some address, some gateway =>
    if address = "" ∨ address = "0.0.0.0" then s.stationDown
    else { s with
      flags := s.flags.insert .wifiConnected, address, gateway, netmask := (textOf? d "netmask").getD "" }
  | _, _ => s.stationDown

/-- Whether a status code says that the server can be reached; none if there is no such code. -/
def serverReachable? (code : Int) : Option Bool :=
  if code = 0 ∨ code = 1 ∨ code = 5 then some false
  else if code = 2 ∨ code = 3 ∨ code = 4 then some true
  else none

/-- The flag of a connection, after which side opened it. -/
def connectionFlag (c : Client) : ModemFlags := if c.passive then .clientConnected else .asClient

/-- The peers in a connection table, as many as there is room for. -/
def clientsOf (d : At.Document) : List Client := ((d.linesWith "+CIPSTATUS").filterMap Client.ofLine?).take Client.room

/-- Merges the connection table. -/
def mergeConnections (d : At.Document) (s : ModemState) : Except ModemError ModemState :=
  match (codeOf? d "STATUS").bind serverReachable? with
  | none => .error (.malformed connectionQuery)
  | some reachable =>
    let flags :=
      if reachable then s.flags.insert .serverOn else s.flags.remove (.union .serverOn .clientConnected)
    let clients := clientsOf d
    .ok { s with
      flags := clients.foldl (fun flags c => flags.insert (connectionFlag c))
        (flags.remove (.union .clientConnected .asClient))
      clients }

/-- Merges whether more than one connection may be open. -/
def mergeMux (d : At.Document) (s : ModemState) : Except ModemError ModemState :=
  match codeOf? d "+CIPMUX" with
  | none => .error (.malformed muxQuery)
  | some mode => .ok { s with flags := s.flags.set .muxOn (decide (mode ≠ 0)) }

/-- Merges the state of the station, and tells whether it is connected. -/
def mergeWifi (d : At.Document) (s : ModemState) : Except ModemError (Bool × ModemState) :=
  match d.property? "+CWSTATE" with
  | none => .error (.malformed wifiQuery)
  | some l =>
    match l.int? 0 with
    | some 2 => .ok (true, { s with ssid := (l.text? 1).getD "", flags := s.flags.insert .wifiConnected })
    | some 0 | some 1 | some 3 | some 4 => .ok (false, { s with ssid := "", flags := s.flags.remove .wifiConnected })
    | _ => .error (.malformed wifiQuery)

end ModemState
end AirMonitor
