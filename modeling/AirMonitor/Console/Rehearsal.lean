import AirMonitor.Console.Shell

/-!
A co-processor for a rehearsal of the shell: it answers from a script, says OK once
the script has ended, and remembers what it was told.
-/
namespace AirMonitor.Console

structure Rehearsal where
  /-- The answers to come. -/
  answers : List (Except At.CommError At.Response) := []
  /-- What was written to the terminal. -/
  written : String := ""
  /-- The commands that came, the newest first. -/
  commands : List String := []

namespace Rehearsal

/-- The answer to every command after the script. -/
def accepted : At.Response := ⟨Utf8.encode "\r\nOK\r\n"⟩

instance : Host Rehearsal where
  command text r :=
    (r.answers.headD (.ok accepted), { r with answers := r.answers.tail, commands := text :: r.commands })
  write text r := { r with written := r.written ++ text }

end Rehearsal
end AirMonitor.Console
