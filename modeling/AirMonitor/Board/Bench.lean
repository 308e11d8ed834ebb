import AirMonitor.Board.Basic

/-!
A test bench: a board whose clock moves only when something takes time, and whose
UARTs answer from a script. A UART is first in, first out: bytes queue with their
time of arrival, and a byte is received at the earliest when it has arrived.
-/
namespace AirMonitor

/-- How a UART answers one transmission. -/
structure Reply where
  /-- The bytes that come back. -/
  rx : Bytes := []
  /-- From the end of the transmission to the first byte, in microseconds. -/
  delay : Nat := 0
  /-- From each byte to the next. -/
  gap : Nat := 0
  /-- How long the transmission takes. -/
  duration : Nat := 0
  /-- Whether a framing fault is seen. -/
  fault : Bool := false
  /-- Whether the UART gives up; then nothing comes back. -/
  fails : Bool := false
deriving DecidableEq, Repr

/-- One UART of a bench. -/
structure Link where
  /-- The answers to the transmissions to come; after the last nothing comes back. -/
  script : List Reply := []
  /-- The bytes to be received, with their times of arrival. -/
  waiting : List (Instant × UInt8) := []
  fault : Bool := false
deriving DecidableEq, Repr

/-- A clock and two scripted UARTs. -/
structure Bench where
  now : Instant := .boot
  modem : Link := {}
  console : Link := {}
deriving DecidableEq, Repr

namespace Bench

def link (uart : Uart) (b : Bench) : Link :=
  match uart with
  | .modem => b.modem
  | .console => b.console

def setLink (uart : Uart) (l : Link) (b : Bench) : Bench :=
  match uart with
  | .modem => { b with modem := l }
  | .console => { b with console := l }

/-- Moves the clock. -/
def advance (us : Nat) (b : Bench) : Bench := { b with now := b.now.later us }

/-- The bytes of one answer with their times of arrival. -/
def arrivals (start : Instant) (gap : Nat) (rx : Bytes) : List (Instant × UInt8) :=
  rx.zipIdx.map fun (byte, i) => (start.later (i * gap), byte)

/-- Queues bytes to be received on a UART. -/
def feed (uart : Uart) (rx : Bytes) (delay gap : Nat) (b : Bench) : Bench :=
  let l := b.link uart
  b.setLink uart { l with waiting := l.waiting ++ arrivals (b.now.later delay) gap rx }

/-- Adds answers to the end of a UART's script. -/
def promise (uart : Uart) (replies : List Reply) (b : Bench) : Bench :=
  let l := b.link uart
  b.setLink uart { l with script := l.script ++ replies }

/-- Takes the next answer from the script. -/
def transmit (uart : Uart) (b : Bench) : Bool × Bench :=
  let l := b.link uart
  let reply := l.script.headD {}
  let b := (b.advance reply.duration).setLink uart
    { l with script := l.script.tail, fault := l.fault || reply.fault }
  if reply.fails then (false, b) else (true, b.feed uart reply.rx reply.delay reply.gap)

/-- Takes the first byte of the queue if it arrives by the deadline. A deadline that has passed counts as now. -/
def receive (uart : Uart) (deadline : Instant) (b : Bench) : Option UInt8 × Bench :=
  let l := b.link uart
  let limit := b.now.latest deadline
  match l.waiting with
  | [] => (none, { b with now := limit })
  | (arrival, byte) :: rest =>
    if arrival ≤ limit then
      (some byte, { b.setLink uart { l with waiting := rest } with now := b.now.latest arrival })
    else (none, { b with now := limit })

/-- Tells whether a fault was seen and forgets it. -/
def takeFault (uart : Uart) (b : Bench) : Bool × Bench :=
  let l := b.link uart
  (l.fault, b.setLink uart { l with fault := false })

/-- Enough polls of a length to read all that waits at a UART: each takes a byte
    or moves the clock toward the last arrival. -/
def pollsToRead (uart : Uart) (length : Duration) (b : Bench) : Nat :=
  let queue := (b.link uart).waiting
  let last := queue.foldl (fun t (arrival, _) => t.latest arrival) b.now
  queue.length + (last.since b.now).micros / length.micros + 1

instance : Board Bench where
  now := Bench.now
  delay us b := b.advance us.toNat
  setReset _ b := b
  setEnable _ b := b
  transmit uart _ b := b.transmit uart
  receive := Bench.receive
  takeFault := Bench.takeFault

end Bench
end AirMonitor
