import AirMonitor.Log.Entry

/-!
A ring of log entries. The writer never waits: when all `N` slots are taken, the
entry is dropped and counted. The indices and the count are 32-bit words that
wrap around, so `N` has to divide 2^32. A slot is ready from when its entry is
complete until it is drained.
-/
namespace AirMonitor

structure LogStream (N : Nat) where
  entries : Vector LogEntry N := Vector.replicate N .blank
  ready : Vector Bool N := Vector.replicate N false
  /-- The entries accepted so far. -/
  written : UInt32 := 0
  /-- The entries drained so far. -/
  drained : UInt32 := 0
  /-- The entries dropped since the last report. -/
  dropped : UInt32 := 0

namespace LogStream
variable {N : Nat}

/-- The slot of an index. -/
def slot (N : Nat) (index : UInt32) : Nat := index.toNat % N

/-- The entries to be drained. -/
def pending (s : LogStream N) : Nat := (s.written - s.drained).toNat

/-- Adds an entry; `false` if it was dropped. -/
def push (time : Instant) (level : LogLevel) (message : Bytes) (s : LogStream N) : Bool × LogStream N :=
  if UInt32.ofNat N ≤ s.written - s.drained then (false, { s with dropped := s.dropped + 1 })
  else
    let i := slot N s.written
    let entry := (s.entries[i]?.getD .blank).write time level message
    (true, { s with
      entries := s.entries.setIfInBounds i entry, ready := s.ready.setIfInBounds i true, written := s.written + 1 })

/-- Adds a message that is written piece by piece into the room of an entry. -/
def log (time : Instant) (level : LogLevel) (pieces : List String) (s : LogStream N) : Bool × LogStream N :=
  s.push time level (line LogEntry.room pieces)

/-- Takes the oldest entry. -/
def drain? (s : LogStream N) : Option (LogEntry × LogStream N) :=
  let i := slot N s.drained
  if s.drained = s.written ∨ s.ready[i]?.getD false = false then none
  else some (s.entries[i]?.getD .blank, { s with ready := s.ready.setIfInBounds i false, drained := s.drained + 1 })

/-- Takes at most `limit` entries, the oldest first. -/
def drainUpTo : Nat → LogStream N → List LogEntry × LogStream N
  | 0, s => ([], s)
  | limit + 1, s =>
    match s.drain? with
    | none => ([], s)
    | some (entry, s) =>
      let (entries, s) := drainUpTo limit s
      (entry :: entries, s)

/-- Takes all entries. -/
def drainAll (s : LogStream N) : List LogEntry × LogStream N := s.drainUpTo s.pending

/-- Forgets the drops that were reported. -/
def resetDropped (s : LogStream N) : LogStream N := { s with dropped := 0 }

end LogStream

/-- The entries that each log of a node holds. -/
def nodeLogSlots : Nat := 64

/-- A log of a node. -/
abbrev NodeLog := LogStream nodeLogSlots

end AirMonitor
