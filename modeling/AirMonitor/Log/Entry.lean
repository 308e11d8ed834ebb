import AirMonitor.Text.Bounded
import AirMonitor.Text.Numeral
import AirMonitor.Time

/-!
Log entries. An entry has room for 120 bytes, and a shorter message leaves what
was in the rest of the room behind, unread.
-/
namespace AirMonitor

/-- How much an entry matters, the most severe first. -/
inductive LogLevel
  | error
  | warn
  | info
  | debug
  | trace
deriving DecidableEq, Repr

namespace LogLevel

def rank : LogLevel → Nat
  | error => 0
  | warn => 1
  | info => 2
  | debug => 3
  | trace => 4

/-- The level with a rank; all ranks past the last are `trace`. -/
def ofRank : Nat → LogLevel
  | 0 => error
  | 1 => warn
  | 2 => info
  | 3 => debug
  | _ => trace

theorem ofRank_rank (l : LogLevel) : ofRank l.rank = l := by cases l <;> rfl

def name : LogLevel → String
  | error => "ERROR"
  | warn => "WARN"
  | info => "INFO"
  | debug => "DEBUG"
  | trace => "TRACE"

end LogLevel

structure LogEntry where
  time : Instant
  level : LogLevel
  /-- How many bytes of `store` are the message. -/
  size : Nat
  store : Bytes
deriving DecidableEq, Repr

namespace LogEntry

/-- The longest message in bytes. -/
def room : Nat := 120

def blank : LogEntry := ⟨.boot, .info, 0, List.replicate room 0⟩

/-- Overwrites an entry with a message, or with as much of it as there is room for. -/
def write (time : Instant) (level : LogLevel) (message : Bytes) (e : LogEntry) : LogEntry :=
  let kept := message.take room
  ⟨time, level, kept.length, kept ++ e.store.drop kept.length⟩

/-- The bytes of the message. -/
def bytes (e : LogEntry) : Bytes := e.store.take e.size

@[simp] theorem bytes_write (time : Instant) (level : LogLevel) (message : Bytes) (e : LogEntry) :
    (e.write time level message).bytes = message.take room := by
  simp [bytes, write]

/-- The message as text. -/
def message (e : LogEntry) : String := (Utf8.text? e.bytes).getD "<invalid utf8>"

/-- An entry as a line of at most `space` bytes. -/
def toLine (space : Nat) (e : LogEntry) : Bytes :=
  line space ["[", Numeral.alignRight 10 ' ' (Numeral.signed e.time.toInt), "] ", e.level.name, ": ", e.message, "\r\n"]

end LogEntry
end AirMonitor
