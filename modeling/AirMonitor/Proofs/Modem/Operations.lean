import AirMonitor.Modem.Delivery
import AirMonitor.Proofs.Modem.Refreshing
import Mathlib.Logic.Relation

/-!
The operations of a session and what they do to the state. Whatever is asked of a session,
its state changes only by answers that are merged, by a server that is up and by power
commands that are accepted (`perform_changes`). Each of these keeps the flags of the
connections in line with the list of peers (`Change.listed`).
-/
namespace AirMonitor

/-! ### Changes of the state -/

/-- The flags of the connections tell which peers are listed. -/
structure ModemState.Listed (s : ModemState) : Prop where
  passive : s.flags.contains .clientConnected = s.clients.any Client.passive
  active : s.flags.contains .asClient = s.clients.any (!·.passive)

theorem ModemState.listed_default : ({} : ModemState).Listed := ⟨by decide, by decide⟩

/-- The codes of the states that a station can be in. -/
def ModemState.stationCodes : List Int := [0, 1, 2, 3, 4]

theorem ModemState.mergeWifi_eq (d : At.Document) :
    ((∀ code, codeOf? d "+CWSTATE" = some code → code ∉ stationCodes) ∧
        ∀ s : ModemState, s.mergeWifi d = .error (.malformed wifiQuery)) ∨
      ∃ l code on, d.property? "+CWSTATE" = some l ∧ l.int? 0 = some code ∧ code ∈ stationCodes ∧
        (on = true ↔ code = 2) ∧ ∀ s : ModemState, s.mergeWifi d = .ok (on,
          { s with ssid := if on then (l.text? 1).getD "" else "", flags := s.flags.set .wifiConnected on }) := by
  unfold ModemState.mergeWifi codeOf?
  cases line : d.property? "+CWSTATE" with
  | none => exact .inl ⟨nofun, fun s => rfl⟩
  | some l =>
    simp only [Option.bind_some]
    split
    · next two => exact .inr ⟨l, 2, true, rfl, two, by decide, by decide, fun s => rfl⟩
    iterate 4 next known => exact .inr ⟨l, _, false, rfl, known, by decide, by decide, fun s => rfl⟩
    · next two zero one three four =>
      refine .inl ⟨?_, fun s => rfl⟩
      rintro code came
      simp only [stationCodes, List.mem_cons, List.not_mem_nil, or_false]
      rintro (rfl | rfl | rfl | rfl | rfl)
      · exact zero came
      · exact one came
      · exact two came
      · exact three came
      · exact four came

/-- One change of the state. -/
inductive Change : ModemState → ModemState → Prop
  | answer {s t : ModemState} (i : Inquiry) (d : At.Document) (merged : i.merge d s = .ok t) : Change s t
  | wifi {s t : ModemState} (d : At.Document) (on : Bool) (merged : s.mergeWifi d = .ok (on, t)) : Change s t
  | server (s : ModemState) (serverPort : UInt16) :
    Change s { s with flags := s.flags.insert (.union .muxOn .serverOn), serverPort }
  | power (s : ModemState) (power : PowerMode) : Change s { s with power }

/-- Changes that follow each other. -/
def Changes : ModemState → ModemState → Prop := Relation.ReflTransGen Change

variable {s t : ModemState}

theorem Changes.of_eq (same : t = s) : Changes s t := same ▸ .refl

theorem ModemState.Listed.beside (listed : s.Listed)
    (foreign : ∀ f ∈ [ModemFlags.clientConnected, .asClient], t.flags.contains f = s.flags.contains f)
    (clients : t.clients = s.clients) : t.Listed := by
  constructor
  · rw [foreign .clientConnected (by decide), clients, listed.passive]
  · rw [foreign .asClient (by decide), clients, listed.active]

theorem ModemState.Listed.same (listed : s.Listed) (same : Inquiry.connections.Same s t) : t.Listed :=
  listed.beside (fun f own => same.flags f (List.mem_cons_of_mem _ own)) (same.clients rfl)

/-- The flags of the connections are written with the list, and only with it. -/
theorem ModemState.listed_of_merged {d : At.Document} (merged : s.mergeConnections d = .ok t) : t.Listed := by
  rcases Inquiry.mergeConnections_eq d with malformed | ⟨reachable, merges⟩
  · cases (malformed s).symm.trans merged
  · obtain rfl := Except.ok.inj ((merges s).symm.trans merged)
    exact ⟨Inquiry.linked_clientConnected _ _ _, Inquiry.linked_asClient _ _ _⟩

theorem Change.listed (change : Change s t) (listed : s.Listed) : t.Listed := by
  cases change with
  | answer i d merged =>
    by_cases table : i = .connections
    · subst table
      exact ModemState.listed_of_merged merged
    · rcases i.merge_cases d with malformed | ⟨reported, merges⟩
      · cases (malformed s).symm.trans merged
      · obtain ⟨u, one, decides⟩ := merges s
        obtain rfl := Except.ok.inj (one.symm.trans merged)
        exact listed.same (decides.others .connections (Ne.symm table))
  | wifi d on merged =>
    rcases ModemState.mergeWifi_eq d with ⟨-, malformed⟩ | ⟨l, code, up, -, -, -, -, merges⟩
    · cases (malformed s).symm.trans merged
    · obtain ⟨rfl, rfl⟩ := Prod.mk.inj (Except.ok.inj ((merges s).symm.trans merged))
      refine listed.beside (fun f own => ?_) rfl
      have apart : ∀ f ∈ [ModemFlags.clientConnected, .asClient],
          f ∈ ModemFlags.all ∧ ModemFlags.wifiConnected.contains f = false := by decide
      obtain ⟨known, foreign⟩ := apart f own
      rw [ModemFlags.contains_set (ModemFlags.single_of_mem known), foreign]
      rfl
  | server serverPort =>
    refine listed.beside (fun f own => ?_) rfl
    have apart : ∀ f ∈ [ModemFlags.clientConnected, .asClient],
        f ∈ ModemFlags.all ∧ (ModemFlags.union .muxOn .serverOn).contains f = false := by decide
    obtain ⟨known, foreign⟩ := apart f own
    rw [ModemFlags.contains_insert (ModemFlags.single_of_mem known), foreign, Bool.or_false]
  | power mode => exact ⟨listed.passive, listed.active⟩

theorem Changes.listed (changes : Changes s t) (listed : s.Listed) : t.Listed := by
  induction changes with
  | refl => exact listed
  | tail _ change ih => exact change.listed ih

/-! ### What the operations change -/

namespace Session
variable {σ : Type} [Board σ] {α : Type}

theorem exchange_state (command : String) (s : Session σ) : (s.exchange command).2.state = s.state := by
  unfold exchange
  rcases s.channel.exchange command s.timing.commandTimeout with ⟨result, channel⟩
  rfl

theorem command_state (command : String) (s : Session σ) : (s.command command).2.state = s.state := by
  have state := exchange_state command s
  unfold Session.command
  cases run : s.exchange command with
  | mk result t =>
    rw [run] at state
    cases result with
    | ok response => exact state
    | error e => exact state

theorem query_state (command : String) (s : Session σ) : (s.query command).2.state = s.state := by
  have state := command_state command s
  unfold query
  cases run : s.command command with
  | mk result t =>
    rw [run] at state
    cases result with
    | error e => exact state
    | ok response =>
      by_cases clean : response.document.malformed = 0 ∧ response.document.dropped = 0
      · simp only [if_pos clean]
        exact state
      · simp only [if_neg clean]
        exact state

/-- A query leaves the state as it was, or as its answer changes it. -/
theorem merge_state (query : String) (f : At.Document → ModemState → Except ModemError (α × ModemState))
    (s : Session σ) : (s.merge query f).2.state = s.state ∨
      ∃ d a, f d s.state = .ok (a, (s.merge query f).2.state) := by
  have state := query_state query s
  unfold merge
  cases run : s.query query with
  | mk result t =>
    rw [run] at state
    cases result with
    | error e => exact .inl state
    | ok d =>
      cases merged : f d t.state with
      | error e =>
        simp only [merged]
        exact .inl state
      | ok out =>
        have state : t.state = s.state := state
        rw [state] at merged
        simp only [state, merged]
        exact .inr ⟨d, out.1, merged⟩

theorem ask_changes (i : Inquiry) (s : Session σ) : Changes s.state (s.ask i).2.state := by
  rcases merge_state i.query (fun d state => (i.merge d state).map ((), ·)) s with state | ⟨d, a, merged⟩
  · exact .of_eq state
  · cases one : i.merge d s.state with
    | error e => simp [one, Except.map] at merged
    | ok u =>
      obtain rfl : u = _ := by simpa [one, Except.map] using merged
      exact .single (.answer i d one)

theorem inquire_changes (is : List Inquiry) (s : Session σ) : Changes s.state (s.inquire is).2.state := by
  induction is generalizing s with
  | nil => exact .refl
  | cons i is ih =>
    have asked := ask_changes i s
    unfold inquire
    cases run : s.ask i with
    | mk result t =>
      rw [run] at asked
      cases result with
      | error e => exact asked
      | ok => exact asked.trans (ih t)

theorem refresh_changes (s : Session σ) : Changes s.state s.refresh.2.state := by
  have changes := inquire_changes Inquiry.all s
  cases run : s.inquire Inquiry.all with
  | mk result t =>
    rw [run] at changes
    cases result with
    | error e =>
      rw [refresh_error run]
      exact changes
    | ok =>
      rw [refresh_ok run]
      exact changes

theorem commit_state (command : String) (change : ModemState → ModemState) (s : Session σ) :
    (s.commit command change).2.state = s.state ∨ (s.commit command change).2.state = change s.state := by
  have state := command_state command s
  unfold commit
  cases run : s.command command with
  | mk result t =>
    rw [run] at state
    cases result with
    | error e => exact .inl state
    | ok response => exact .inr (congrArg change state)

theorem commit_changes (command : String) (mode : PowerMode) (s : Session σ) :
    Changes s.state (s.commit command fun state => { state with power := mode }).2.state := by
  rcases commit_state command (fun state => { state with power := mode }) s with state | state
  · exact .of_eq state
  · rw [state]
    exact .single (.power s.state mode)

theorem startServer_state (serverPort : UInt16) (s : Session σ) :
    (s.startServer serverPort).2.state = s.state ∨ (s.startServer serverPort).2.state =
      { s.state with flags := s.state.flags.insert (.union .muxOn .serverOn), serverPort } := by
  have state := exchange_state "AT+CIPMUX=1" s
  unfold startServer
  cases run : s.exchange "AT+CIPMUX=1" with
  | mk result t =>
    rw [run] at state
    cases result with
    | error e => exact .inl state
    | ok response =>
      have state' := exchange_state ("AT+CIPSERVER=1," ++ Numeral.decimal serverPort.toNat) t
      simp only
      cases run : t.exchange ("AT+CIPSERVER=1," ++ Numeral.decimal serverPort.toNat) with
      | mk result u =>
        rw [run] at state'
        cases result with
        | error e => exact .inl (state'.trans state)
        | ok response =>
          have state : u.state = s.state := state'.trans state
          right
          rw [← state]
          rfl

theorem sendTo_state (mux : Bool) (payload : Bytes) (link : UInt8) (s : Session σ) :
    (s.sendTo mux payload link).2.state = s.state := by
  have state := exchange_state (announcement mux link payload.length) s
  unfold sendTo
  by_cases long : announcementRoom < (Utf8.encode (announcement mux link payload.length)).length
  · rw [if_pos long]
  · rw [if_neg long]
    cases run : s.exchange (announcement mux link payload.length) with
    | mk result t =>
      rw [run] at state
      cases result with
      | error e => exact state
      | ok response =>
        simp only
        rcases t.channel.exchangeBytes payload t.timing.commandTimeout with ⟨_ | _, channel⟩
        · exact state
        · exact state

theorem sendToAll_state (mux : Bool) (payload : Bytes) (links : List UInt8) (s : Session σ) :
    (s.sendToAll mux payload links).2.state = s.state := by
  induction links generalizing s with
  | nil => rfl
  | cons link links ih =>
    have state := sendTo_state mux payload link s
    unfold sendToAll
    cases run : s.sendTo mux payload link with
    | mk result t =>
      rw [run] at state
      cases result with
      | error cause => exact state
      | ok => exact (ih t).trans state

theorem send_state (payload : Bytes) (peers : Peers) (s : Session σ) : (s.send payload peers).2.state = s.state := by
  have state := sendToAll_state (s.state.flags.contains .muxOn) payload (targets peers s.state) s
  unfold send
  by_cases empty : payload.isEmpty
  · rw [if_pos empty]
  · rw [if_neg empty]
    simp only
    cases run : s.sendToAll (s.state.flags.contains .muxOn) payload (targets peers s.state) with
    | mk result t =>
      rw [run] at state
      cases result with
      | error failure => exact state
      | ok => exact state

theorem afterFailedProbe_state (attempt limit : Nat) (e : At.CommError) (s : Session σ) :
    (s.afterFailedProbe attempt limit e).state = s.state := by
  unfold afterFailedProbe
  by_cases expired : e = .timeout
  · simp only [if_pos expired]
    split <;> rfl
  · simp only [if_neg expired]
    rfl

theorem probe_state (limit left : Nat) (s : Session σ) : (s.probe limit left).2.state = s.state := by
  induction left generalizing s with
  | zero => rfl
  | succ left ih =>
    unfold probe
    rcases s.channel.exchange probeCommand s.timing.probeTimeout with ⟨e | _, channel⟩
    · exact (ih _).trans (afterFailedProbe_state _ _ e _)
    · rfl

/-! ### Runs -/

/-- An operation of a session. -/
inductive Operation (σ : Type)
  | bringUp
  | setEnabled (on : Bool)
  | command (command : String)
  | refresh
  | refreshWifi
  | startServer (serverPort : UInt16)
  | send (payload : Bytes) (peers : Peers)
  | sleep
  | wake
  | deepSleep (duration : Duration)
  /-- Something else is done with the board and the log. -/
  | elsewhere (f : At.Channel σ → At.Channel σ)

/-- The session after an operation, whatever its result. -/
def Operation.perform (s : Session σ) : Operation σ → Session σ
  | bringUp => s.bringUp.2
  | setEnabled on => s.setEnabled on
  | command line => (s.command line).2
  | refresh => s.refresh.2
  | refreshWifi => s.refreshWifi.2
  | startServer serverPort => (s.startServer serverPort).2
  | send payload peers => (s.send payload peers).2
  | sleep => s.sleep.2
  | wake => s.wake.2
  | deepSleep duration => (s.deepSleep duration).2
  | elsewhere f => { s with channel := f s.channel }

theorem perform_changes (o : Operation σ) (s : Session σ) : Changes s.state (o.perform s).state := by
  cases o with
  | bringUp => exact .of_eq (probe_state _ _ _)
  | setEnabled on => cases on <;> exact .refl
  | command line => exact .of_eq (command_state line s)
  | refresh => exact refresh_changes s
  | refreshWifi =>
    rcases merge_state ModemState.wifiQuery (fun d state => state.mergeWifi d) s with state | ⟨d, on, merged⟩
    · exact .of_eq state
    · exact .single (.wifi d on merged)
  | startServer serverPort =>
    rcases startServer_state serverPort s with state | state
    · exact .of_eq state
    · show Changes s.state (s.startServer serverPort).2.state
      rw [state]
      exact .single (.server s.state serverPort)
  | send payload peers => exact .of_eq (send_state payload peers s)
  | sleep => exact commit_changes _ .sleep s
  | wake => exact commit_changes _ .awake s
  | deepSleep duration =>
    unfold Operation.perform deepSleep
    exact commit_changes _ .deepSleep s
  | elsewhere f => exact .refl

theorem perform_listed (o : Operation σ) {s : Session σ} (listed : s.state.Listed) : (o.perform s).state.Listed :=
  (perform_changes o s).listed listed

end Session
end AirMonitor
