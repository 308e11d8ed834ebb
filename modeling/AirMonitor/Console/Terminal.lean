import AirMonitor.Console.Shell
import AirMonitor.Modem.Session

/-!
The shell on the console UART of a board, in front of a session. What the UART does
not take in time is lost. The UART is polled for keys until the shell exits.
-/
namespace AirMonitor.Console

/-- A session whose board has the console. -/
structure Terminal (σ : Type) where
  session : Session σ

namespace Terminal
variable {σ : Type} [Board σ]

instance : Host (Terminal σ) where
  command text t :=
    let (result, session) := t.session.command text
    (result, ⟨session⟩)
  write text t := ⟨t.session.onBoard fun b => (Board.transmit .console (Utf8.encode text) b).2⟩

/-- How long one poll waits for a key. -/
def pollTime : Duration := .ofMillis 30

/-- Polls the console at most `polls` times, until the shell exits. -/
def poll : Nat → Shell → Terminal σ → Event × Terminal σ
  | 0, _, t => (.go, t)
  | polls + 1, shell, t =>
    let (key, board) := Board.receive .console (Board.now t.session.board + pollTime) t.session.board
    let t : Terminal σ := ⟨t.session.onBoard fun _ => board⟩
    match key with
    | none => poll polls shell t
    | some byte =>
      match shell.feed byte t with
      | (.exit, _, t) => (.exit, t)
      | (.go, shell, t) => poll polls shell t

/-- Shows the banner and polls the console. -/
def run (polls : Nat) (t : Terminal σ) : Event × Terminal σ := (Host.write banner t).poll polls {}

end Terminal
end AirMonitor.Console
