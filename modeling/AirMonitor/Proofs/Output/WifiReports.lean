import AirMonitor.Output.Station
import AirMonitor.Proofs.Modem.Operations
import AirMonitor.Proofs.Modem.Sending

/-!
What the wifi sink reports. The sink asks a flag whether a peer has connected, and the
session sends to a list of peers. The two agree in every station that operations lead to
(`Reachable.listed`), so the sink never succeeds without a peer that was reached
(`sendWifi_reports`).
-/
namespace AirMonitor

namespace StatusFlags
variable (a b : StatusFlags)

theorem contains_insert_self : (a.insert b).contains b = true := by
  have absorbed : (a.bits ||| b.bits) &&& b.bits = b.bits := by
    apply UInt32.toBitVec_inj.mp
    ext i
    simpa using Or.inr
  simp [contains, insert, union, absorbed]

theorem contains_remove_self {b : StatusFlags} (nonempty : b.bits ≠ 0) : (a.remove b).contains b = false := by
  have gone : (a.bits &&& ~~~b.bits) &&& b.bits = 0 := by
    rw [UInt32.and_assoc, UInt32.not_and_self, UInt32.and_zero]
  simp [contains, remove, gone, nonempty.symm]

theorem remove_insert_self : (a.insert b).remove b = a.remove b := by
  have same : (a.bits ||| b.bits) &&& ~~~b.bits = a.bits &&& ~~~b.bits := by
    apply UInt32.toBitVec_inj.mp
    ext i
    simp [Bool.and_or_distrib_right]
  rw [remove, insert, union, same, remove]

theorem remove_remove_self : (a.remove b).remove b = a.remove b := by
  simp only [remove, UInt32.and_assoc, UInt32.and_self]

end StatusFlags

namespace Station
variable {σ : Type} [Board σ]

/-- What may happen to a station. -/
inductive Action (σ : Type)
  | session (o : Session.Operation σ)
  | insert (flags : StatusFlags)
  | remove (flags : StatusFlags)
  | assign (flags : StatusFlags) (on : Bool)
  | clear
  | showLinks (modem : ModemFlags)
  | sendConsole (payload : Bytes)
  | sendWifi (payload : Bytes)
  | pollAttach

def Action.perform (s : Station σ) : Action σ → Station σ
  | session o => { s with session := o.perform s.session }
  | insert flags => { s with status := s.status.insert flags }
  | remove flags => { s with status := s.status.remove flags }
  | assign flags on => { s with status := s.status.assign flags on }
  | clear => { s with status := .ok }
  | showLinks modem => { s with status := s.status.showLinks modem }
  | sendConsole payload => (s.sendConsole payload).2
  | sendWifi payload => (s.sendWifi payload).2
  | pollAttach => s.pollAttach.2

/-- The stations that actions lead to from a session that knows nothing. -/
inductive Reachable : Station σ → Prop
  | start (channel : At.Channel σ) (timing : Timing) : Reachable { session := { channel, timing } }
  | step {s : Station σ} (reachable : Reachable s) (a : Action σ) : Reachable (a.perform s)

theorem sendConsole_state (payload : Bytes) (s : Station σ) :
    (s.sendConsole payload).2.session.state = s.session.state := by
  unfold sendConsole
  by_cases attached : s.status.contains .consoleConnected
  · rw [if_pos attached]
    rcases Board.transmit .console payload s.board with ⟨_ | _, board⟩ <;> rfl
  · rw [if_neg attached]

theorem pollAttach_state (s : Station σ) : s.pollAttach.2.session.state = s.session.state := by
  unfold pollAttach
  by_cases attached : s.status.contains .consoleConnected
  · rw [if_pos attached]
  · rw [if_neg attached]
    rcases Board.receive .console .boot s.board with ⟨_ | _, board⟩ <;> rfl

theorem sendWifi_state (payload : Bytes) (s : Station σ) : (s.sendWifi payload).2.session.state = s.session.state := by
  have state := Session.send_state payload .known s.session
  unfold sendWifi
  by_cases connected : s.session.state.flags.contains .clientConnected
  · rw [if_pos connected]
    cases run : s.session.send payload .known with
    | mk result t =>
      rw [run] at state
      cases result with
      | ok n => exact state
      | error failure => exact state
  · rw [if_neg connected]

theorem perform_listed (a : Action σ) {s : Station σ} (listed : s.session.state.Listed) :
    (a.perform s).session.state.Listed := by
  cases a with
  | session o => exact Session.perform_listed o listed
  | insert flags => exact listed
  | remove flags => exact listed
  | assign flags on => exact listed
  | clear => exact listed
  | showLinks modem => exact listed
  | sendConsole payload => exact (sendConsole_state payload s).symm ▸ listed
  | sendWifi payload => exact (sendWifi_state payload s).symm ▸ listed
  | pollAttach => exact (pollAttach_state s).symm ▸ listed

theorem Reachable.listed {s : Station σ} (reachable : Reachable s) : s.session.state.Listed := by
  induction reachable with
  | start channel timing => exact ModemState.listed_default
  | step _ a ih => exact perform_listed a ih

/-- The wifi sink succeeds just if a peer has connected and all peers took the payload. It
    refuses, and leaves the station as it was, just if no peer has connected. The status
    shows which way any other send went, and nothing else. -/
theorem sendWifi_reports {s : Station σ} (reachable : Reachable s) {payload : Bytes} (nonempty : payload ≠ [])
    (small : payload.length < Nat.pow 10 17) :
    let clients := s.session.state.clients
    let script := Session.script (s.session.state.flags.contains .muxOn) payload (clients.map Client.link)
    ∃ result t, s.sendWifi payload = (result, t) ∧
      (result = .ok () ↔ (∃ c ∈ clients, c.passive) ∧
        ∀ place < clients.length, Session.served (s.session.replies script) place = true) ∧
      (result = .error .notConnected ↔ ¬ ∃ c ∈ clients, c.passive) ∧
      (match result with
      | .ok () => t.status.contains .wifiFailed = false
      | .error .notConnected => t = s
      | .error cause => (∃ failure, cause = .wifi failure ∧ (s.session.send payload .known).1 = .error failure) ∧
        t.status.contains .wifiFailed = true) ∧
      t.status.remove .wifiFailed = s.status.remove .wifiFailed := by
  intro clients script
  -- The flag that the sink asks says that the list has a peer for the session to send to.
  have listed : s.session.state.flags.contains .clientConnected = true ↔ ∃ c ∈ clients, c.passive := by
    rw [reachable.listed.passive, List.any_eq_true]
  unfold sendWifi
  by_cases connected : s.session.state.flags.contains .clientConnected = true
  · have passive := listed.mp connected
    obtain ⟨result, t, run, -, accounts⟩ := Session.send_spec small nonempty .known s.session
    have served : result = .ok () ↔ ∀ place < clients.length, Session.served (s.session.replies script) place = true := by
      rw [accounts.ok_iff, ← Session.served_iff, Session.targets, List.length_map]
    rw [if_pos connected, run]
    cases result with
    | ok =>
      refine ⟨.ok (), _, rfl, ?_, ?_, ?_, StatusFlags.remove_remove_self _ _⟩
      · exact ⟨fun _ => ⟨passive, served.mp rfl⟩, fun _ => rfl⟩
      · exact ⟨nofun, fun none => absurd passive none⟩
      · exact StatusFlags.contains_remove_self _ (by decide)
    | error failure =>
      refine ⟨.error (.wifi failure), _, rfl, ?_, ?_, ?_, StatusFlags.remove_insert_self _ _⟩
      · exact ⟨nofun, fun both => nomatch served.mpr both.2⟩
      · exact ⟨nofun, fun none => absurd passive none⟩
      · exact ⟨⟨failure, rfl, rfl⟩, StatusFlags.contains_insert_self _ _⟩
  · have none : ¬ ∃ c ∈ clients, c.passive := fun passive => connected (listed.mpr passive)
    rw [if_neg connected]
    refine ⟨.error .notConnected, s, rfl, ?_, ?_, rfl, rfl⟩
    · exact ⟨nofun, fun both => absurd both.1 none⟩
    · exact ⟨fun _ => none, fun _ => rfl⟩

/-- One peer has connected and takes the payload, and one that the node has connected to does not. -/
theorem sendWifi_reports_oneRefuses :
    let reply (text : String) : Reply := { rx := Utf8.encode text }
    let bench : Bench := { modem := { script := [
      reply "OK\r\n",
      reply ("STATUS:3\r\n+CIPSTATUS:0,\"TCP\",\"10.0.0.8\",80,4000,1\r\n" ++
        "+CIPSTATUS:2,\"TCP\",\"10.0.0.9\",80,4001,0\r\nOK\r\n"),
      reply "+CIPMUX:1\r\nOK\r\n", reply "OK\r\n", reply "SEND OK\r\n", reply "ERROR\r\n"] } }
    let start : Station Bench := { session := { channel := { board := bench } } }
    let s := (Action.session .refresh).perform start
    let payload := Utf8.encode "21.5 C"
    Reachable s ∧ payload ≠ [] ∧ payload.length < Nat.pow 10 17 ∧ s.status.contains .wifiFailed = false ∧
      (s.sendWifi payload).1 = .error (.wifi ⟨1, .comm (.deviceReported ⟨Utf8.encode "ERROR\r\n"⟩)⟩) ∧
      (s.sendWifi payload).2.status.contains .wifiFailed = true := by
  intro reply bench start s payload
  have reachable : Reachable s := .step (.start _ _) _
  have nonempty : payload ≠ [] := by decide
  have small : payload.length < Nat.pow 10 17 := by decide
  have refused : (s.sendWifi payload).1 = .error (.wifi ⟨1, .comm (.deviceReported ⟨Utf8.encode "ERROR\r\n"⟩)⟩) := by
    decide +kernel
  obtain ⟨result, t, run, -, -, told, -⟩ := sendWifi_reports reachable nonempty small
  rw [run] at refused ⊢
  obtain rfl := refused
  exact ⟨reachable, nonempty, small, by decide, rfl, told.2⟩

end Station
end AirMonitor
