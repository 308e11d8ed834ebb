import AirMonitor.At.Response
import AirMonitor.Console.Line

/-!
The shell on the console. A line goes to the co-processor as it was typed, and the
answer is shown as it came, except for two reserved words. A line ends with a
carriage return, a line feed or both; backspace takes the last character off, and
the interrupt key drops the line.
-/
namespace AirMonitor.Console

/-- What the shell works with: a co-processor to send commands to, and a screen. -/
class Host (κ : Type) where
  command : String → κ → Except At.CommError At.Response × κ
  write : String → κ → κ

/-- What the shell tells its user when something goes wrong. -/
inductive ShellError
  | lineTooLong
  | modem (cause : At.CommError)
deriving DecidableEq, Repr

namespace ShellError

def message : ShellError → String
  | lineTooLong => "line too long"
  | modem cause => "modem: " ++ cause.message

def code : ShellError → String
  | lineTooLong => "E01"
  | modem _ => "E02"

end ShellError

/-! ### Texts -/

def version : String := "aq-node v0.1.0-gunknown"
def prompt : String := "Prompt> "

/-- What is shown before the first line. -/
def banner : String :=
  "\r\n" ++ version ++ "\r\nESP-AT passthrough, type 'help' for reserved words.\r\n" ++ prompt

/-- The words that do not go to the co-processor, and what they do. -/
def reserved : List (String × String) :=
  [("exit", "Leave the passthrough and start sampling"), ("help", "Print this message")]

/-- A word, with spaces up to six characters. -/
def column (word : String) : String := word ++ String.ofList (List.replicate (6 - word.length) ' ')

/-- What the word `help` shows. -/
def help : String :=
  reserved.foldl (fun shown (word, brief) => shown ++ "  " ++ column word ++ brief ++ "\r\n")
    "All lines go to the WiFi co-processor except:\r\n\r\n"

/-- A line that reports an error. -/
def report (e : ShellError) : String := e.code ++ ": " ++ e.message ++ "\r\n"

/-! ### The shell -/

/-- Whether the shell goes on. -/
inductive Event
  | go
  | exit
deriving DecidableEq, Repr

structure Shell where
  line : Line := {}
  /-- The byte before was a carriage return. -/
  afterReturn : Bool := false
deriving DecidableEq, Repr

namespace Shell
variable {κ : Type} [Host κ]

/-- Sends a command and shows the answer. -/
def forward (command : String) (host : κ) : κ :=
  match Host.command command host with
  | (.ok response, host) => Host.write response.text host
  | (.error e, host) =>
    let host :=
      match e.response? with
      | some captured => Host.write captured.text host
      | none => host
    Host.write (report (.modem e)) host

/-- Does what a finished line says. -/
def submit (line : Line) (host : κ) : Event × κ :=
  if line.overflowed then (.go, Host.write (report .lineTooLong) host)
  else if line.text = "" then (.go, host)
  else if line.text = "exit" then (.exit, host)
  else if line.text = "help" then (.go, Host.write help host)
  else (.go, forward line.text host)

/-- The line is finished. -/
def enter (shell : Shell) (host : κ) : Event × Shell × κ :=
  match submit shell.line (Host.write "\r\n" host) with
  | (.exit, host) => (.exit, { shell with line := {} }, host)
  | (.go, host) => (.go, { shell with line := {} }, Host.write prompt host)

/-- The last character is taken off the line and the screen. -/
def backspace (shell : Shell) (host : κ) : Shell × κ :=
  match shell.line.pop? with
  | some (_, line) => ({ shell with line }, Host.write "\x08 \x08" host)
  | none => (shell, host)

/-- The line is dropped. -/
def interrupt (shell : Shell) (host : κ) : Shell × κ :=
  ({ shell with line := {} }, Host.write prompt (Host.write "^C\r\n" host))

/-- A character is appended and shown, if there is room. -/
def key (byte : UInt8) (shell : Shell) (host : κ) : Shell × κ :=
  match shell.line.push byte with
  | (true, line) => ({ shell with line }, Host.write (Char.ofNat byte.toNat).toString host)
  | (false, line) => ({ shell with line }, host)

/-- Takes one byte from the console. -/
def feed (byte : UInt8) (shell : Shell) (host : κ) : Event × Shell × κ :=
  let afterReturn := shell.afterReturn
  let shell := { shell with afterReturn := byte = 13 }
  if byte = 10 ∧ afterReturn then (.go, shell, host)
  else if byte = 13 ∨ byte = 10 then shell.enter host
  else if byte = 0x7f ∨ byte = 8 then (.go, shell.backspace host)
  else if byte = 3 then (.go, shell.interrupt host)
  else if 0x20 ≤ byte ∧ byte ≤ 0x7e then (.go, shell.key byte host)
  else (.go, shell, host)

/-- Takes bytes until the shell exits, and counts those it took. -/
def feedAll : Bytes → Shell → κ → Event × Nat × Shell × κ
  | [], shell, host => (.go, 0, shell, host)
  | byte :: bytes, shell, host =>
    match shell.feed byte host with
    | (.exit, shell, host) => (.exit, 1, shell, host)
    | (.go, shell, host) =>
      let (event, count, shell, host) := feedAll bytes shell host
      (event, count + 1, shell, host)

end Shell
end AirMonitor.Console
