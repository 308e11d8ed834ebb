import AirMonitor.Text.Utf8

/-!
The line that is typed at a console. It holds 128 bytes; a byte too many marks the
line, which then takes no edits until it is cleared.
-/
namespace AirMonitor.Console

structure Line where
  bytes : Bytes := []
  /-- A byte was lost for want of room. -/
  overflowed : Bool := false
deriving DecidableEq, Repr

namespace Line

/-- The most bytes of a line. -/
def room : Nat := 128

/-- Appends a byte, and tells whether there was room. -/
def push (byte : UInt8) (l : Line) : Bool × Line :=
  if l.bytes.length = room then (false, { l with overflowed := true })
  else (true, { l with bytes := l.bytes ++ [byte] })

/-- Takes the last byte off. -/
def pop? (l : Line) : Option (UInt8 × Line) :=
  if l.overflowed then none
  else l.bytes.getLast?.map fun byte => (byte, { l with bytes := l.bytes.dropLast })

/-- The text of the line; none that is not UTF-8. -/
def text (l : Line) : String := (Utf8.text? l.bytes).getD ""

end Line
end AirMonitor.Console
