import AirMonitor.Modem.Delivery

/-!
The sinks that messages go to, and what may go wrong there. The multiplexer sees
the sinks, and the clock that it sleeps by, only through `Outlets`, so what holds
for all outlets holds for every pattern of failures.
-/
namespace AirMonitor

/-- A destination of messages. -/
inductive SinkId
  | console
  | wifi
deriving DecidableEq, Repr

namespace SinkId

/-- All sinks, in the order in which a message is queued for them. -/
def all : List SinkId := [console, wifi]

/-- The bit that stands for a sink in a set of permits. -/
def bit : SinkId → UInt8
  | console => 1
  | wifi => 2

def name : SinkId → String
  | console => "console"
  | wifi => "wifi"

end SinkId

/-- Why a message was not delivered to a sink. -/
inductive SinkError
  /-- Nobody listens. -/
  | notConnected
  /-- The UART gave up. -/
  | serial
  | wifi (failure : SendFailure)
deriving DecidableEq, Repr

namespace SinkError

/-- What a UART says when it gives up. -/
def serialMessage : String := "serial link timeout"

def message : SinkError → String
  | notConnected => "sink not connected"
  | serial => serialMessage
  | wifi failure => failure.message

def code : SinkError → String
  | notConnected => "S01"
  | serial => "S02"
  | wifi _ => "S03"

end SinkError

/-- Sinks that take messages one at a time, and a clock to sleep by. -/
class Outlets (τ : Type) where
  send : SinkId → Bytes → τ → Except SinkError Unit × τ
  sleepUntil : Instant → τ → τ

end AirMonitor
