import AirMonitor.At.Document

/-!
The peers of a co-processor. The connection table has a line for each, with the
link, the protocol, the peer's address, the sockets of both sides, and which side
opened the connection; a line that lacks one of them, or whose numbers are out of
range, describes no peer.
-/
namespace AirMonitor

/-- How a connection is carried. -/
inductive Protocol
  | tcp
  | tcpV6
  | udp
  | udpV6
  | ssl
  | sslV6
  /-- None of the above. -/
  | unknown
deriving DecidableEq, Repr

namespace Protocol

/-- The protocol of a name in the connection table. -/
def ofName (name : String) : Protocol :=
  if name = "TCP" then tcp
  else if name = "TCPv6" then tcpV6
  else if name = "UDP" then udp
  else if name = "UDPv6" then udpV6
  else if name = "SSL" then ssl
  else if name = "SSLv6" then sslV6
  else unknown

def name : Protocol → String
  | tcp => "TCP"
  | tcpV6 => "TCPv6"
  | udp => "UDP"
  | udpV6 => "UDPv6"
  | ssl => "SSL"
  | sslV6 => "SSLv6"
  | unknown => "?"

theorem ofName_name (p : Protocol) : ofName p.name = p := by cases p <;> decide

end Protocol

/-- A connected peer. -/
structure Client where
  /-- The link on which data goes to the peer. -/
  link : UInt8
  protocol : Protocol
  address : String
  remotePort : UInt16
  localPort : UInt16
  /-- The peer opened the connection. -/
  passive : Bool
deriving DecidableEq, Repr

namespace Client

/-- The most peers that a node keeps. -/
def room : Nat := 8

/-- A number, if it is at least zero and below a bound. -/
def inRange (bound : Nat) (x : Int) : Option Nat := if 0 ≤ x ∧ x < bound then some x.toNat else none

/-- The peer that a line of the connection table describes. -/
def ofLine? (l : At.ResponseLine) : Option Client := do
  let link ← (← l.int? 0) |> inRange 0x100
  let protocol ← l.text? 1
  let address ← l.text? 2
  let remotePort ← (← l.int? 3) |> inRange 0x10000
  let localPort ← (← l.int? 4) |> inRange 0x10000
  let opened ← l.int? 5
  return {
    link := .ofNat link
    protocol := .ofName protocol
    address
    remotePort := .ofNat remotePort
    localPort := .ofNat localPort
    passive := decide (opened ≠ 0) }

end Client
end AirMonitor
