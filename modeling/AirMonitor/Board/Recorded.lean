import AirMonitor.Board.Basic

/-!
A board that remembers what was done with it. It behaves as the board inside does,
and notes every delay, every change of a control line and every transmission with
the time at which it began.
-/
namespace AirMonitor

/-- Something that was done with a board. -/
inductive Deed
  | delay (us : UInt32)
  | reset (on : Bool)
  | enable (on : Bool)
  | transmit (uart : Uart) (data : Bytes)
deriving DecidableEq, Repr

/-- A board and the deeds done with it, the newest first. -/
structure Recorded (σ : Type) where
  board : σ
  deeds : List (Instant × Deed) := []

namespace Recorded
variable {σ : Type} [Board σ]

/-- Notes a deed at the present time. -/
def note (deed : Deed) (r : Recorded σ) : List (Instant × Deed) := (Board.now r.board, deed) :: r.deeds

instance : Board (Recorded σ) where
  now r := Board.now r.board
  delay us r := ⟨Board.delay us r.board, r.note (.delay us)⟩
  setReset on r := ⟨Board.setReset on r.board, r.note (.reset on)⟩
  setEnable on r := ⟨Board.setEnable on r.board, r.note (.enable on)⟩
  transmit uart data r :=
    let (sent, board) := Board.transmit uart data r.board
    (sent, ⟨board, r.note (.transmit uart data)⟩)
  receive uart deadline r :=
    let (byte, board) := Board.receive uart deadline r.board
    (byte, ⟨board, r.deeds⟩)
  takeFault uart r :=
    let (fault, board) := Board.takeFault uart r.board
    (fault, ⟨board, r.deeds⟩)

/-- The deeds in the order in which they were done. -/
def history (r : Recorded σ) : List (Instant × Deed) := r.deeds.reverse

/-- Joins transmissions on a UART that follow each other at one time. -/
def join (uart : Uart) : List (Instant × Deed) → List (Instant × Deed)
  | [] => []
  | (time, deed) :: rest =>
    match deed, join uart rest with
    | .transmit p data, (time', .transmit p' more) :: rest =>
      if time = time' ∧ p = uart ∧ p' = uart then (time, .transmit uart (data ++ more)) :: rest
      else (time, .transmit p data) :: (time', .transmit p' more) :: rest
    | _, rest => (time, deed) :: rest

/-- The history with what a UART was sent at one time in one piece. -/
def joined (uart : Uart) (r : Recorded σ) : List (Instant × Deed) := join uart r.history

/-- What was transmitted on a UART, in order. -/
def sent (uart : Uart) (r : Recorded σ) : List Bytes :=
  r.history.filterMap fun
    | (_, .transmit p data) => if p = uart then some data else none
    | _ => none

end Recorded
end AirMonitor
