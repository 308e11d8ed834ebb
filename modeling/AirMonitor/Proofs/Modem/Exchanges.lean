import AirMonitor.Proofs.At.Conversation
import AirMonitor.Proofs.Modem.Backlog

/-!
What the operations of a session do with the link. Up to the log, a command is one
exchange of the board, and its result is what the link replies (`command_reply`). Nothing
but a merged answer or an accepted command changes the state.
-/
namespace AirMonitor.Session
variable {σ : Type} {s t : Session σ} {α : Type}

theorem SameOutcome.shown {x : α × Session σ} {a : α} (same : SameOutcome x (a, t)) : ∃ s, x = (a, s) ∧ Alike s t :=
  ⟨x.2, Prod.ext same.1 rfl, same.2⟩

theorem Alike.trans {u : Session σ} (first : Alike s t) (second : Alike t u) : Alike s u :=
  ⟨first.board.trans second.board, first.timing.trans second.timing, first.state.trans second.state,
    first.phase.trans second.phase⟩

variable [Board σ]

theorem Alike.noted (alike : Alike s t) (level : LogLevel) (pieces : List String) : Alike (s.note level pieces) t :=
  ⟨alike.board, alike.timing, alike.state, alike.phase⟩

/-- What the link replies to a transmission. -/
def reply (data : Bytes) (s : Session σ) : Except At.CommError At.Response :=
  (At.converse s.timing.commandTimeout data s.board).1

/-- The session after a transmission and the reply to it, with the log as it was. -/
def moved (data : Bytes) (s : Session σ) : Session σ :=
  s.onBoard fun b => (At.converse s.timing.commandTimeout data b).2

/-- What the link replies to transmissions that follow each other, as far as the first failure. -/
def replies (data : List Bytes) (s : Session σ) : List (Except At.CommError At.Response) :=
  At.replies s.timing.commandTimeout data s.board

/-- The session after transmissions that follow each other, as far as the first failure. -/
def conducted (data : List Bytes) (s : Session σ) : Session σ :=
  s.onBoard (At.conversed s.timing.commandTimeout (data.take (s.replies data).length))

theorem converse_eq (data : Bytes) (s : Session σ) :
    At.converse s.timing.commandTimeout data s.board = (s.reply data, (s.moved data).board) := rfl

theorem exchangeBytes_reply (data : Bytes) (s : Session σ) : ∃ channel,
    s.channel.exchangeBytes data s.timing.commandTimeout = (s.reply data, channel) ∧
      Alike { s with channel } (s.moved data) := by
  obtain ⟨result, board⟩ := At.exchangeBytes_eq data s.timing.commandTimeout s.channel
  exact ⟨_, Prod.ext result rfl, board, rfl, rfl, rfl⟩

theorem Alike.reply (alike : Alike s t) (data : Bytes) : s.reply data = t.reply data := by
  unfold Session.reply Session.board
  rw [alike.board, alike.timing]

theorem Alike.moved (alike : Alike s t) (data : Bytes) : Alike (s.moved data) (t.moved data) := by
  refine ⟨?_, alike.timing, alike.state, alike.phase⟩
  simp only [Session.moved, onBoard, alike.board, alike.timing]

theorem Alike.replies (alike : Alike s t) (data : List Bytes) : s.replies data = t.replies data := by
  unfold Session.replies Session.board
  rw [alike.board, alike.timing]

theorem Alike.conducted (alike : Alike s t) (data : List Bytes) : Alike (s.conducted data) (t.conducted data) := by
  refine ⟨?_, alike.timing, alike.state, alike.phase⟩
  simp only [Session.conducted, alike.replies, onBoard, alike.board, alike.timing]

section
variable {data : Bytes}

theorem replies_failed {e : At.CommError} (failed : s.reply data = .error e) (more : List Bytes) :
    s.replies (data :: more) = [.error e] ∧ s.conducted (data :: more) = s.moved data := by
  have heard : s.replies (data :: more) = [.error e] := At.replies_failed (by rw [converse_eq, failed])
  exact ⟨heard, by rw [conducted, heard]; rfl⟩

theorem replies_answered {response : At.Response} (answered : s.reply data = .ok response) (more : List Bytes) :
    s.replies (data :: more) = .ok response :: (s.moved data).replies more ∧
      s.conducted (data :: more) = (s.moved data).conducted more := by
  have heard : s.replies (data :: more) = .ok response :: (s.moved data).replies more :=
    At.replies_answered (by rw [converse_eq, answered])
  exact ⟨heard, by rw [conducted, heard]; rfl⟩

end

section
variable {command : String} (fits : (Utf8.encode command).length ≤ At.Channel.commandRoom)
include fits

theorem exchange_reply (s : Session σ) :
    SameOutcome (s.exchange command) (s.reply (At.commandLine command), s.moved (At.commandLine command)) := by
  obtain ⟨channel, sent, alike⟩ := exchangeBytes_reply (At.commandLine command) s
  rw [exchange, At.exchange_eq fits, sent]
  exact ⟨rfl, alike⟩

theorem command_reply (s : Session σ) :
    SameOutcome (s.command command) (s.reply (At.commandLine command), s.moved (At.commandLine command)) := by
  obtain ⟨t, run, alike⟩ := (exchange_reply fits s).shown
  rw [Session.command, run]
  cases s.reply (At.commandLine command) with
  | ok response => exact ⟨rfl, alike⟩
  | error e => exact ⟨rfl, alike.noted _ _⟩

theorem query_reply (s : Session σ) :
    SameOutcome (s.query command)
      ((s.reply (At.commandLine command)).mapError ModemError.comm |>.map At.Response.document,
        s.moved (At.commandLine command)) := by
  obtain ⟨t, run, alike⟩ := (command_reply fits s).shown
  rw [query, run]
  cases s.reply (At.commandLine command) with
  | error e => exact ⟨rfl, alike⟩
  | ok response =>
    by_cases clean : response.document.malformed = 0 ∧ response.document.dropped = 0
    · simp only [if_pos clean]
      exact ⟨rfl, alike⟩
    · simp only [if_neg clean]
      exact ⟨rfl, alike.noted _ _⟩

end

end AirMonitor.Session
