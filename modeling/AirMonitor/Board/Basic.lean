import AirMonitor.Text.Utf8
import AirMonitor.Time

/-!
The devices a node is wired to: a clock, the co-processor's control lines and two
UARTs. A board is any state with these operations (`Board`), and every
operation gives the board as it is afterwards, so what holds for all boards holds
for every behaviour of the devices. Waits and discards are built from the
operations and end on every board.
-/
namespace AirMonitor

/-- The UARTs: one to the co-processor, one to a terminal. -/
inductive Uart
  | modem
  | console
deriving DecidableEq, Repr

/-- A clock, control lines and UARTs. -/
class Board (σ : Type) where
  now : σ → Instant
  /-- Waits a number of microseconds. -/
  delay : UInt32 → σ → σ
  /-- Holds the co-processor in reset, or releases it. -/
  setReset : Bool → σ → σ
  /-- Powers the co-processor, or cuts its power. -/
  setEnable : Bool → σ → σ
  /-- Writes all bytes; `false` if the UART gave up. -/
  transmit : Uart → Bytes → σ → Bool × σ
  /-- Waits for one byte until the deadline. -/
  receive : Uart → Instant → σ → Option UInt8 × σ
  /-- Whether a framing fault was seen since the last call. -/
  takeFault : Uart → σ → Bool × σ

namespace Board
variable {σ : Type} [Board σ]

/-! ### Discarding -/

/-- The most bytes that one discard drops, so that a UART that never falls silent cannot hold the caller. -/
def discardLimit : Nat := 4096

/-- Drops at most `limit` bytes that have arrived and counts them. -/
def discardUpTo (uart : Uart) : Nat → σ → Nat × σ
  | 0, s => (0, s)
  | limit + 1, s =>
    match receive uart .boot s with
    | (none, s) => (0, s)
    | (some _, s) =>
      let (count, s) := discardUpTo uart limit s
      (count + 1, s)

/-- Drops what has arrived and counts the bytes. -/
def discard (uart : Uart) (s : σ) : Nat × σ := discardUpTo uart discardLimit s

/-! ### Sleeping -/

/-- The longest delay that can be asked for, in microseconds. -/
def longestDelay : Nat := 0xffffffff

/-- Delays until the deadline, at most `rounds` times. -/
def sleepRounds (deadline : Instant) : Nat → σ → σ
  | 0, s => s
  | rounds + 1, s =>
    let left := (deadline.since (now s)).micros
    if left = 0 then s
    else sleepRounds deadline rounds (delay (UInt32.ofNat (min left longestDelay)) s)

/-- Delays until the deadline. Every delay takes a microsecond or more, which bounds their number. -/
def sleepUntil (deadline : Instant) (s : σ) : σ :=
  sleepRounds deadline (deadline.toInt - (now s).toInt).toNat s

end Board
end AirMonitor
