import AirMonitor.At.Response
import AirMonitor.Board.Basic
import AirMonitor.Log.Stream

/-!
Exchanges with the co-processor: a command or a payload goes out in one
transmission, and a response comes back. What arrived earlier is discarded first,
so that a late response never answers the next command. The response is read byte
by byte until its last line, the deadline or the end of the room for it.
-/
namespace AirMonitor.At

/-- The board that exchanges use and the log that they report to. -/
structure Channel (σ : Type) where
  board : σ
  log : NodeLog := {}

namespace Channel
variable {σ : Type} [Board σ]

def now (c : Channel σ) : Instant := Board.now c.board

/-- Logs a message at the present time. -/
def note (level : LogLevel) (pieces : List String) (c : Channel σ) : Channel σ :=
  { c with log := (c.log.log c.now level pieces).2 }

/-- The longest command in bytes, without its line break. -/
def commandRoom : Nat := 256

/-- Discards what arrived before an exchange. -/
def discardStale (c : Channel σ) : Channel σ :=
  let (count, board) := Board.discard .modem c.board
  let c := { c with board }
  if count = 0 then c
  else c.note .debug ["dropped ", Numeral.decimal count, " stale byte(s) before exchange"]

/-- Reads a response of which the bytes `newestFirst` have come, until the
    deadline and at most `room` bytes more. -/
def readMore (deadline : Instant) : Nat → Bytes → σ → Except CommError Response × σ
  | 0, newestFirst, s => (.error (.bufferExhausted ⟨newestFirst.reverse⟩), s)
  | room + 1, newestFirst, s =>
    match Board.receive .modem deadline s with
    | (none, s) => (.error .timeout, s)
    | (some byte, s) =>
      match verdictOfReverse? (byte :: newestFirst) with
      | some .success => (.ok ⟨(byte :: newestFirst).reverse⟩, s)
      | some .failure => (.error (.deviceReported ⟨(byte :: newestFirst).reverse⟩), s)
      | none => readMore deadline room (byte :: newestFirst) s

/-- Writes bytes and reads the response to them. -/
def exchangeBytes (data : Bytes) (timeout : Duration) (c : Channel σ) : Except CommError Response × Channel σ :=
  let c := c.discardStale
  let deadline := c.now + timeout
  match Board.transmit .modem data c.board with
  | (false, board) => (.error .timeout, { c with board })
  | (true, board) =>
    let (result, board) := readMore deadline Response.room [] board
    (result, { c with board })

/-- Writes a command and its line break and reads the response. -/
def exchange (command : String) (timeout : Duration) (c : Channel σ) : Except CommError Response × Channel σ :=
  if commandRoom < (Utf8.encode command).length then (.error .commandTooLong, c)
  else c.exchangeBytes (Utf8.encode command ++ lineBreak) timeout

end Channel
end AirMonitor.At
