import AirMonitor.Board.Basic
import AirMonitor.Log.Stream

/-!
Writing log streams to a UART. A pump empties the streams one after the other and
writes the entries up to a level; every ten seconds it also reports how many
entries each stream dropped. A UART that gives up loses the line.
-/
namespace AirMonitor

/-- When drops were last reported. -/
structure LogDrain where
  lastReport : Instant := .boot
deriving DecidableEq, Repr

namespace LogDrain
variable {σ : Type} [Board σ] {N : Nat}

/-- The time between two reports of drops, in microseconds. -/
def reportInterval : Int := 10000000

/-- The longest line: the message, its time, its level and what stands between them. -/
def lineRoom : Nat := LogEntry.room + 32

/-- Drains at most `count` entries, writes those up to a level, and counts what it drained. -/
def empty (uart : Uart) (most : LogLevel) : Nat → LogStream N → σ → Nat × LogStream N × σ
  | 0, stream, board => (0, stream, board)
  | count + 1, stream, board =>
    match stream.drain? with
    | none => (0, stream, board)
    | some (entry, stream) =>
      let board :=
        if entry.level.rank ≤ most.rank then (Board.transmit uart (entry.toLine lineRoom) board).2 else board
      let (drained, stream, board) := empty uart most count stream board
      (drained + 1, stream, board)

/-- Empties streams in order. -/
def emptyAll (uart : Uart) (most : LogLevel) : List (LogStream N) → σ → Nat × List (LogStream N) × σ
  | [], board => (0, [], board)
  | stream :: streams, board =>
    let (here, stream, board) := empty uart most stream.pending stream board
    let (rest, streams, board) := emptyAll uart most streams board
    (here + rest, stream :: streams, board)

/-- The line that reports the drops of a stream. -/
def dropLine (now : Instant) (index : Nat) (dropped : UInt32) : Bytes :=
  line lineRoom ["[", Numeral.alignRight 10 ' ' (Numeral.signed now.toInt), "] WARN: log stream ",
    Numeral.decimal index, " dropped ", Numeral.decimal dropped.toNat, " entries\r\n"]

/-- Reports the drops of streams, counted from `index` on, and forgets them. -/
def reportDrops (uart : Uart) (now : Instant) : Nat → List (LogStream N) → σ → List (LogStream N) × σ
  | _, [], board => ([], board)
  | index, stream :: streams, board =>
    let (stream, board) :=
      if stream.dropped = 0 then (stream, board)
      else (stream.resetDropped, (Board.transmit uart (dropLine now index stream.dropped) board).2)
    let (streams, board) := reportDrops uart now (index + 1) streams board
    (stream :: streams, board)

/-- What a pump leaves behind. -/
structure Pumped (N : Nat) (σ : Type) where
  /-- The entries drained. -/
  consumed : Nat
  drain : LogDrain
  streams : List (LogStream N)
  board : σ

/-- Empties the streams and, when it is time, reports their drops. -/
def pump (uart : Uart) (now : Instant) (most : LogLevel) (drain : LogDrain) (streams : List (LogStream N))
    (board : σ) : Pumped N σ :=
  let (consumed, streams, board) := emptyAll uart most streams board
  if reportInterval ≤ now.toInt - drain.lastReport.toInt then
    let (streams, board) := reportDrops uart now 0 streams board
    ⟨consumed, ⟨now⟩, streams, board⟩
  else ⟨consumed, drain, streams, board⟩

end LogDrain
end AirMonitor
