import AirMonitor.Modem.Delivery
import AirMonitor.Modem.Refresh
import AirMonitor.Proofs.At.Framing
import AirMonitor.Proofs.Text.Numerals

/-!
Stale input never answers a command. An exchange depends on the board only as a discard
leaves it (`AlikeCleared`), so two runs that begin with different backlogs at the
co-processor's UART are alike from their first exchange on, whatever an operation does
behind that (`backlog_without_effect`). Only their logs tell them apart.
-/
namespace AirMonitor

/-! ### Exchanges -/

namespace At.Channel
variable {σ : Type} [Board σ] {c c' : Channel σ}

/-- Two exchanges give the same result and leave the same board. -/
def SameOutcome {α : Type} (x x' : α × Channel σ) : Prop := x.1 = x'.1 ∧ x.2.board = x'.2.board

/-- The boards are the same once stale bytes have been discarded. -/
def Cleared (c c' : Channel σ) : Prop := (Board.discard .modem c.board).2 = (Board.discard .modem c'.board).2

theorem exchangeBytes_cleared (cleared : c.Cleared c') (data : Bytes) (timeout : Duration) :
    SameOutcome (c.exchangeBytes data timeout) (c'.exchangeBytes data timeout) := by
  have board : c.discardStale.board = c'.discardStale.board := by
    rw [board_discardStale, board_discardStale, cleared]
  simp only [SameOutcome, exchangeBytes, now, board]
  rcases Board.transmit .modem data c'.discardStale.board with ⟨sent, s⟩
  cases sent <;> exact ⟨rfl, rfl⟩

theorem exchange_cleared (cleared : c.Cleared c') {command : String} (fits : (Utf8.encode command).length ≤ commandRoom)
    (timeout : Duration) : SameOutcome (c.exchange command timeout) (c'.exchange command timeout) := by
  unfold exchange
  rw [if_neg (Nat.not_lt.mpr fits), if_neg (Nat.not_lt.mpr fits)]
  exact exchangeBytes_cleared cleared _ timeout

end At.Channel

namespace Session
variable {σ : Type} {s s' : Session σ} {α : Type}

/-- Nothing but the logs differs. -/
structure Alike (s s' : Session σ) : Prop where
  board : s.channel.board = s'.channel.board
  timing : s.timing = s'.timing
  state : s.state = s'.state
  phase : s.phase = s'.phase

/-- Two runs give the same result and leave sessions that are alike. -/
def SameOutcome (x x' : α × Session σ) : Prop := x.1 = x'.1 ∧ Alike x.2 x'.2

theorem SameOutcome.exists {x x' : α × Session σ} (same : SameOutcome x x') :
    ∃ a t t', x = (a, t) ∧ x' = (a, t') ∧ Alike t t' :=
  ⟨x.1, x.2, x'.2, rfl, Prod.ext same.1.symm rfl, same.2⟩

theorem Alike.update (alike : Alike s s') (change : ModemState → ModemState) :
    Alike { s with state := change s.state } { s' with state := change s'.state } :=
  ⟨alike.board, alike.timing, congrArg change alike.state, alike.phase⟩

variable [Board σ]

theorem Alike.note (alike : Alike s s') (level : LogLevel) (pieces pieces' : List String) :
    Alike (s.note level pieces) (s'.note level pieces') :=
  ⟨alike.board, alike.timing, alike.state, alike.phase⟩

/-- Nothing but the logs differs once stale bytes have been discarded. -/
structure AlikeCleared (s s' : Session σ) : Prop where
  cleared : s.channel.Cleared s'.channel
  timing : s.timing = s'.timing
  state : s.state = s'.state
  phase : s.phase = s'.phase

theorem Alike.cleared (alike : Alike s s') : AlikeCleared s s' :=
  ⟨congrArg (fun board => (Board.discard .modem board).2) alike.board, alike.timing, alike.state, alike.phase⟩

/-! ### Commands -/

section
variable {command : String} (fits : (Utf8.encode command).length ≤ At.Channel.commandRoom)
include fits

theorem exchange_cleared (alike : AlikeCleared s s') : SameOutcome (s.exchange command) (s'.exchange command) := by
  obtain ⟨result, board⟩ := At.Channel.exchange_cleared alike.cleared fits s'.timing.commandTimeout
  unfold exchange
  rw [show s.timing.commandTimeout = s'.timing.commandTimeout by rw [alike.timing]]
  exact ⟨result, board, alike.timing, alike.state, alike.phase⟩

theorem command_cleared (alike : AlikeCleared s s') : SameOutcome (s.command command) (s'.command command) := by
  obtain ⟨result, t, t', run, run', after⟩ := (exchange_cleared fits alike).exists
  unfold Session.command
  rw [run, run']
  cases result with
  | ok response => exact ⟨rfl, after⟩
  | error e => exact ⟨rfl, after.note _ _ _⟩

theorem query_cleared (alike : AlikeCleared s s') : SameOutcome (s.query command) (s'.query command) := by
  obtain ⟨result, t, t', run, run', after⟩ := (command_cleared fits alike).exists
  unfold query
  rw [run, run']
  cases result with
  | error e => exact ⟨rfl, after⟩
  | ok response =>
    by_cases clean : response.document.malformed = 0 ∧ response.document.dropped = 0
    · simp only [if_pos clean]
      exact ⟨rfl, after⟩
    · simp only [if_neg clean]
      exact ⟨rfl, after.note _ _ _⟩

theorem merge_cleared (alike : AlikeCleared s s')
    (f : At.Document → ModemState → Except ModemError (α × ModemState)) :
    SameOutcome (s.merge command f) (s'.merge command f) := by
  obtain ⟨result, t, t', run, run', after⟩ := (query_cleared fits alike).exists
  unfold merge
  rw [run, run']
  cases result with
  | error e => exact ⟨rfl, after⟩
  | ok d =>
    simp only [← after.state]
    cases f d t.state with
    | error e => exact ⟨rfl, after⟩
    | ok merged => exact ⟨rfl, after.board, after.timing, rfl, after.phase⟩

theorem commit_cleared (alike : AlikeCleared s s') (change : ModemState → ModemState) :
    SameOutcome (s.commit command change) (s'.commit command change) := by
  obtain ⟨result, t, t', run, run', after⟩ := (command_cleared fits alike).exists
  unfold commit
  rw [run, run']
  cases result with
  | error e => exact ⟨rfl, after⟩
  | ok response => exact ⟨rfl, after.update change⟩

end

/-! ### Operations -/

theorem refreshAll_cleared (alike : AlikeCleared s s') : SameOutcome s.refreshAll s'.refreshAll := by
  have station : SameOutcome s.refreshStation s'.refreshStation := merge_cleared (by decide) alike _
  obtain ⟨result, t, t', run, run', alike⟩ := station.exists
  unfold refreshAll
  rw [run, run']
  cases result with
  | error e => exact ⟨rfl, alike⟩
  | ok =>
    have connections : SameOutcome t.refreshConnections t'.refreshConnections :=
      merge_cleared (by decide) alike.cleared _
    obtain ⟨result, u, u', run, run', alike⟩ := connections.exists
    simp only [run, run']
    cases result with
    | error e => exact ⟨rfl, alike⟩
    | ok =>
      have mux : SameOutcome u.refreshMux u'.refreshMux := merge_cleared (by decide) alike.cleared _
      obtain ⟨result, v, v', run, run', alike⟩ := mux.exists
      simp only [run, run']
      cases result with
      | error e => exact ⟨rfl, alike⟩
      | ok => exact ⟨congrArg (fun state => Except.ok state.flags) alike.state, alike⟩

theorem refresh_cleared (alike : AlikeCleared s s') : SameOutcome s.refresh s'.refresh := by
  obtain ⟨result, t, t', run, run', after⟩ := (refreshAll_cleared alike).exists
  unfold refresh
  rw [run, run']
  cases result with
  | ok flags => exact ⟨rfl, after⟩
  | error e => exact ⟨rfl, after.note _ _ _⟩

/-- Whatever number of its size it names, a command is short enough. -/
theorem fits_of_decimal {front : String} {n k : Nat} (positive : 0 < k) (small : n < Nat.pow 10 k) {room : Nat}
    (fits : (Utf8.encode front).length + k ≤ room) : (Utf8.encode (front ++ Numeral.decimal n)).length ≤ room := by
  have digits := Numeral.length_decimal positive small
  rw [Utf8.encode_append, List.length_append]
  omega

/-- The command that starts to listen. -/
def serverCommand (serverPort : UInt16) : String := "AT+CIPSERVER=1," ++ Numeral.decimal serverPort.toNat

theorem serverCommand_fits (serverPort : UInt16) :
    (Utf8.encode (serverCommand serverPort)).length ≤ At.Channel.commandRoom := by
  have small : serverPort.toNat < Nat.pow 10 5 := Nat.lt_of_lt_of_le serverPort.toNat_lt (by decide)
  exact fits_of_decimal (by decide) small (by decide)

/-- The command that asks for deep sleep. -/
def deepSleepCommand (duration : Duration) : String :=
  "AT+GSLP=" ++ Numeral.decimal (min duration.millis 0xffffffff)

theorem deepSleep_fits (duration : Duration) :
    (Utf8.encode (deepSleepCommand duration)).length ≤ At.Channel.commandRoom := by
  have small : min duration.millis 0xffffffff < Nat.pow 10 10 := Nat.lt_of_le_of_lt (Nat.min_le_right _ _) (by decide)
  exact fits_of_decimal (by decide) small (by decide)

theorem startServer_cleared (alike : AlikeCleared s s') (serverPort : UInt16) :
    SameOutcome (s.startServer serverPort) (s'.startServer serverPort) := by
  have fits : (Utf8.encode "AT+CIPMUX=1").length ≤ At.Channel.commandRoom := by decide
  obtain ⟨result, t, t', run, run', after⟩ := (exchange_cleared fits alike).exists
  unfold startServer
  rw [run, run']
  cases result with
  | error e => exact ⟨rfl, after⟩
  | ok response =>
    have fits : (Utf8.encode ("AT+CIPSERVER=1," ++ Numeral.decimal serverPort.toNat)).length ≤ At.Channel.commandRoom :=
      serverCommand_fits serverPort
    obtain ⟨result, u, u', run, run', after⟩ := (exchange_cleared fits after.cleared).exists
    simp only [run, run']
    cases result with
    | error e => exact ⟨rfl, after⟩
    | ok response =>
      have served := after.update fun state =>
        { state with flags := state.flags.insert (.union .muxOn .serverOn), serverPort }
      exact ⟨rfl, served.note _ _ _⟩

theorem deepSleep_cleared (alike : AlikeCleared s s') (duration : Duration) :
    SameOutcome (s.deepSleep duration) (s'.deepSleep duration) := commit_cleared (deepSleep_fits duration) alike _

/-! ### Sending -/

section
variable {payload : Bytes}

/-- A payload that any memory holds can be announced. One that cannot is refused before
    anything is discarded. -/
theorem length_announcement (small : payload.length < Nat.pow 10 17) (mux : Bool) (link : UInt8) :
    (Utf8.encode (announcement mux link payload.length)).length ≤ announcementRoom := by
  have size := Numeral.length_decimal (by decide) small
  have number : link.toNat < Nat.pow 10 3 := Nat.lt_of_lt_of_le link.toNat_lt (by decide)
  have name := Numeral.length_decimal (by decide) number
  have front : (Utf8.encode "AT+CIPSEND=").length = 11 := by decide
  have comma : (Utf8.encode ",").length = 1 := by decide
  unfold announcement announcementRoom
  cases mux with
  | false =>
    rw [if_neg (by decide), Utf8.encode_append, List.length_append]
    omega
  | true =>
    rw [if_pos rfl]
    simp only [Utf8.encode_append, List.length_append]
    omega

variable (small : payload.length < Nat.pow 10 17)
include small

theorem sendTo_cleared (alike : AlikeCleared s s') (mux : Bool) (link : UInt8) :
    SameOutcome (s.sendTo mux payload link) (s'.sendTo mux payload link) := by
  have short := length_announcement small mux link
  have fits : (Utf8.encode (announcement mux link payload.length)).length ≤ At.Channel.commandRoom :=
    Nat.le_trans short (by decide)
  obtain ⟨result, t, t', run, run', after⟩ := (exchange_cleared fits alike).exists
  unfold sendTo
  rw [if_neg (Nat.not_lt.mpr short), if_neg (Nat.not_lt.mpr short), run, run']
  cases result with
  | error e => exact ⟨rfl, after⟩
  | ok response =>
    obtain ⟨same, board⟩ :=
      At.Channel.exchangeBytes_cleared after.cleared.cleared payload t'.timing.commandTimeout
    simp only [after.timing]
    cases sent : t.channel.exchangeBytes payload t'.timing.commandTimeout with
    | mk result channel =>
      cases sent' : t'.channel.exchangeBytes payload t'.timing.commandTimeout with
      | mk result' channel' =>
        rw [sent, sent'] at same board
        obtain rfl : result = result' := same
        cases result with
        | error e => exact ⟨rfl, board, rfl, after.state, after.phase⟩
        | ok response => exact ⟨rfl, board, rfl, after.state, after.phase⟩

theorem sendToAll_cleared (alike : AlikeCleared s s') (mux : Bool) (link : UInt8) (links : List UInt8) :
    SameOutcome (s.sendToAll mux payload (link :: links)) (s'.sendToAll mux payload (link :: links)) := by
  induction links generalizing s s' link with
  | nil =>
    obtain ⟨result, t, t', run, run', after⟩ := (sendTo_cleared small alike mux link).exists
    rw [sendToAll, sendToAll, run, run']
    cases result with
    | ok => exact ⟨rfl, after⟩
    | error cause => exact ⟨rfl, after.note _ _ _⟩
  | cons next links ih =>
    obtain ⟨result, t, t', run, run', after⟩ := (sendTo_cleared small alike mux link).exists
    rw [sendToAll, sendToAll, run, run']
    cases result with
    | ok => exact ih after.cleared next
    | error cause => exact ⟨rfl, after.note _ _ _⟩

theorem send_cleared (alike : AlikeCleared s s') (nonempty : payload ≠ []) {peers : Peers}
    (some_target : targets peers s.state ≠ []) : SameOutcome (s.send payload peers) (s'.send payload peers) := by
  have full : ¬ payload.isEmpty := by simpa using nonempty
  obtain ⟨link, links, shown⟩ := List.exists_cons_of_ne_nil some_target
  unfold send
  rw [if_neg full, if_neg full, ← alike.state]
  simp only [shown]
  obtain ⟨result, t, t', run, run', after⟩ :=
    (sendToAll_cleared small alike (s.state.flags.contains .muxOn) link links).exists
  rw [run, run']
  cases result with
  | ok => exact ⟨rfl, after⟩
  | error failure => exact ⟨rfl, after⟩

end

/-! ### Backlogs -/

/-- Bytes that have arrived, as many as one discard drops or fewer. -/
structure Stale (now : Instant) (backlog : List (Instant × UInt8)) : Prop where
  few : backlog.length ≤ Board.discardLimit
  arrived : ∀ byte ∈ backlog, byte.1 ≤ now

/-- The session with another queue at the co-processor's UART. -/
def withQueue (queue : List (Instant × UInt8)) (s : Session (Recorded Bench)) : Session (Recorded Bench) :=
  s.onBoard fun r => { r with board := r.board.left queue r.board.now }

theorem alikeCleared_withQueue {s : Session (Recorded Bench)} {backlog backlog' rest : List (Instant × UInt8)}
    (booted : .boot ≤ s.channel.now) (stale : Stale s.channel.now backlog) (stale' : Stale s.channel.now backlog')
    (fresh : ∀ first ∈ rest.head?, s.channel.now < first.1) :
    AlikeCleared (s.withQueue (backlog ++ rest)) (s.withQueue (backlog' ++ rest)) := by
  -- Both backlogs are discarded to the last byte, and nothing of what follows is.
  have cleared : ∀ {backlog}, Stale s.channel.now backlog →
      (Board.discard .modem (s.withQueue (backlog ++ rest)).channel.board).2 = (s.withQueue rest).channel.board := by
    intro backlog stale
    have discarded := Bench.discardUpTo_backlog (b := s.channel.board.board) booted stale.few stale.arrived fresh
    rw [Recorded.discard_eq]
    exact congrArg (fun x => (⟨x.2, s.channel.board.deeds⟩ : Recorded Bench)) discarded
  exact ⟨(cleared stale).trans (cleared stale').symm, rfl, rfl, rfl⟩

/-- Two runs that begin with different backlogs, and are otherwise the same, have the
    same results and leave the same boards and states. -/
theorem backlog_without_effect {s : Session (Recorded Bench)} {backlog backlog' rest : List (Instant × UInt8)}
    (booted : .boot ≤ s.channel.now) (stale : Stale s.channel.now backlog) (stale' : Stale s.channel.now backlog')
    (fresh : ∀ first ∈ rest.head?, s.channel.now < first.1) :
    let t := s.withQueue (backlog ++ rest)
    let t' := s.withQueue (backlog' ++ rest)
    (∀ command timeout, (Utf8.encode command).length ≤ At.Channel.commandRoom →
      At.Channel.SameOutcome (t.channel.exchange command timeout) (t'.channel.exchange command timeout)) ∧
    (∀ payload timeout,
      At.Channel.SameOutcome (t.channel.exchangeBytes payload timeout) (t'.channel.exchangeBytes payload timeout)) ∧
    SameOutcome t.refresh t'.refresh ∧ SameOutcome t.refreshWifi t'.refreshWifi ∧
    (∀ serverPort, SameOutcome (t.startServer serverPort) (t'.startServer serverPort)) ∧
    SameOutcome t.sleep t'.sleep ∧ SameOutcome t.wake t'.wake ∧
    (∀ duration, SameOutcome (t.deepSleep duration) (t'.deepSleep duration)) ∧
    ∀ payload peers, payload ≠ [] → payload.length < Nat.pow 10 17 → targets peers s.state ≠ [] →
      SameOutcome (t.send payload peers) (t'.send payload peers) := by
  intro t t'
  have alike : AlikeCleared t t' := alikeCleared_withQueue booted stale stale' fresh
  refine ⟨?_, ?_, refresh_cleared alike, ?_, startServer_cleared alike, ?_, ?_, deepSleep_cleared alike, ?_⟩
  · exact fun command timeout fits => At.Channel.exchange_cleared alike.cleared fits timeout
  · exact fun payload timeout => At.Channel.exchangeBytes_cleared alike.cleared payload timeout
  · exact merge_cleared (by decide) alike _
  · exact commit_cleared (by decide) alike _
  · exact commit_cleared (by decide) alike _
  · exact fun payload peers nonempty small some_target => send_cleared small alike nonempty some_target

/-- An answer that came too late for the last command is no answer to the next. -/
theorem backlog_without_effect_lateAnswer :
    let s : Session (Recorded Bench) := { channel := { board := { board := { now := ⟨5⟩ } } } }
    let backlog : List (Instant × UInt8) := [(.boot, 79), (.boot, 75), (⟨4⟩, 13), (⟨5⟩, 10)]
    let rest : List (Instant × UInt8) := [(⟨9⟩, 43)]
    Stale s.channel.now backlog ∧ (s.withQueue (backlog ++ rest)).sleep.1 = .error (.comm .timeout) := by
  intro s backlog rest
  have stale : Stale s.channel.now backlog := ⟨by decide +kernel, by decide +kernel⟩
  have stale' : Stale s.channel.now [] := ⟨by decide +kernel, by decide +kernel⟩
  have fresh : ∀ first ∈ rest.head?, s.channel.now < first.1 := by decide +kernel
  obtain ⟨-, -, -, -, -, ⟨result, -⟩, -⟩ := backlog_without_effect (s := s) (by decide +kernel) stale stale' fresh
  refine ⟨stale, ?_⟩
  rw [result]
  decide +kernel

end Session
end AirMonitor
