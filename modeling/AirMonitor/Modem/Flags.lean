/-!
What a node knows about the co-processor's links, as a set of bits.
-/
namespace AirMonitor

/-- A set of link flags. -/
structure ModemFlags where
  bits : UInt8
deriving DecidableEq, Repr

namespace ModemFlags

def none : ModemFlags := ⟨0⟩
/-- The station is connected to an access point. -/
def wifiConnected : ModemFlags := ⟨0x01⟩
/-- More than one connection may be open. -/
def muxOn : ModemFlags := ⟨0x02⟩
/-- The server accepts connections. -/
def serverOn : ModemFlags := ⟨0x04⟩
/-- A peer has connected to the server. -/
def clientConnected : ModemFlags := ⟨0x08⟩
/-- The node has connected to a peer. -/
def asClient : ModemFlags := ⟨0x10⟩

def union (a b : ModemFlags) : ModemFlags := ⟨a.bits ||| b.bits⟩

/-- All flags of `b` are in `a`. -/
def contains (a b : ModemFlags) : Bool := a.bits &&& b.bits = b.bits

def insert (a b : ModemFlags) : ModemFlags := a.union b

def remove (a b : ModemFlags) : ModemFlags := ⟨a.bits &&& ~~~b.bits⟩

/-- Inserts or removes flags. -/
def set (a b : ModemFlags) (on : Bool) : ModemFlags := if on then a.insert b else a.remove b

end ModemFlags
end AirMonitor
