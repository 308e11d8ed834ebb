import AirMonitor.Status
import AirMonitor.Text.Bounded
import AirMonitor.Text.Fixed
import AirMonitor.Time

/-!
Telemetry frames. A frame collects at most eight named readings and is written as
one line of JSON: the values, the units, the status and the time. A value that is
not finite is written as `null`. A frame that does not fit is cut, and the cut is
reported.
-/
namespace AirMonitor

/-- One value of a sensor. -/
structure Reading where
  name : String
  value : Binary32
  unit : String
  /-- The digits after the point. -/
  places : UInt8 := 2
deriving DecidableEq, Repr

/-- What went wrong with a frame. -/
inductive TelemetryError
  | tooManyReadings
  /-- The frame was cut to a capacity. -/
  | truncated (capacity : Nat)
deriving DecidableEq, Repr

structure Frame where
  readings : List Reading := []
  status : StatusFlags := .ok
  time : Instant
deriving DecidableEq, Repr

namespace Frame

/-- The most readings of a frame. -/
def readingRoom : Nat := 8

/-- The capacity of a frame that goes to the sinks. -/
def textRoom : Nat := 256

/-- Adds a reading. -/
def add (r : Reading) (f : Frame) : Except TelemetryError Frame :=
  if f.readings.length < readingRoom then .ok { f with readings := f.readings ++ [r] } else .error .tooManyReadings

/-- Adds readings in turn, and tells after each how many there are or why it was refused. -/
def addAll : List Reading → Frame → List (Except TelemetryError Nat) × Frame
  | [], f => ([], f)
  | r :: rs, f =>
    match f.add r with
    | .ok f =>
      let (results, last) := addAll rs f
      (.ok f.readings.length :: results, last)
    | .error e =>
      let (results, last) := addAll rs f
      (.error e :: results, last)

/-- The text of a reading's value. -/
def valueText (r : Reading) : String := if r.value.isFinite then r.value.toFixed r.places.toNat else "null"

/-- The pieces that one reading has in the list of values. -/
def valuePieces (r : Reading) : List String := ["\"", r.name, "\": ", valueText r]

/-- The pieces that one reading has in the list of units. -/
def unitPieces (r : Reading) : List String := ["\"", r.name, "\": \"", r.unit, "\""]

/-- The pieces of several readings, with commas between them. -/
def listed (pieces : Reading → List String) (readings : List Reading) : List String :=
  ((readings.map pieces).intersperse [", "]).flatten

/-- All pieces of a frame, in order. -/
def pieces (f : Frame) : List String :=
  ["\x7b\"data\": \x7b"] ++ listed valuePieces f.readings ++ ["\x7d, \"units\": \x7b"] ++
    listed unitPieces f.readings ++
    ["\x7d, \"status\": \x7b\"sensor\": \"", Numeral.hex f.status.bits.toNat, "\"\x7d, \"timestamp_ms\": ",
      Numeral.signed f.time.toMillis, "\x7d\n"]

/-- The text of a frame in a limited space. -/
def page (capacity : Nat) (f : Frame) : Page := Page.ofPieces capacity f.pieces

/-- Writes a frame in place of a text that is held in a limited space. What does not fit is
    cut, and the cut is reported. -/
def renderInto (capacity : Nat) (f : Frame) (held : String) : Except TelemetryError Unit × String :=
  let p := f.pieces.foldl (Page.write capacity) (Page.mk held false).wipe
  (if p.cut then .error (.truncated capacity) else .ok (), p.text)

/-- The text of a frame, if the sinks' messages have room for it. -/
def render (f : Frame) : Except TelemetryError String :=
  let p := f.page textRoom
  if p.cut then .error (.truncated textRoom) else .ok p.text

end Frame

namespace TelemetryError

def message : TelemetryError → String
  | tooManyReadings => "frame already holds " ++ Numeral.decimal Frame.readingRoom ++ " readings"
  | truncated capacity => "frame does not fit in " ++ Numeral.decimal capacity ++ " bytes"

def code : TelemetryError → String
  | tooManyReadings => "T01"
  | truncated _ => "T02"

end TelemetryError
end AirMonitor
