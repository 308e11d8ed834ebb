import AirMonitor.Proofs.Modem.PeerTable

/-!
Operations that do all or nothing. Serving, the query for the state of the station and the
power commands change the state with the last reply that they wait for, and not before
(`startServer_whole`, `refreshWifi_whole`, `commit_whole`). So a failure leaves the state,
wherever it comes from, and the power mode of a session is the last one that the
co-processor accepted (`state_of_acceptance`).
-/
namespace AirMonitor.Session
variable {σ : Type} [Board σ] {α : Type}

/-- An operation succeeds just if it is accepted, and leaves a state that is granted then; if it
    fails it leaves the state as it was. -/
structure Whole (s : Session σ) (outcome : Except ModemError α × Session σ) (accepted : Prop)
    (granted : α → ModemState → Prop) : Prop where
  done : (∃ a, outcome.1 = .ok a) ↔ accepted
  succeeded : ∀ a, outcome.1 = .ok a → granted a outcome.2.state
  failed : ∀ e, outcome.1 = .error e → outcome.2.state = s.state

section
variable {s : Session σ} {outcome : Except ModemError α × Session σ} {accepted : Prop} {granted : α → ModemState → Prop}

omit [Board σ] in
theorem Whole.of_ok {a : α} (done : outcome.1 = .ok a) (accepts : accepted) (grants : granted a outcome.2.state) :
    Whole s outcome accepted granted where
  done := iff_of_true ⟨a, done⟩ accepts
  succeeded b same := by
    obtain rfl : a = b := Except.ok.inj (done.symm.trans same)
    exact grants
  failed _ failed := nomatch done.symm.trans failed

omit [Board σ] in
theorem Whole.of_error {e : ModemError} (failed : outcome.1 = .error e) (refuses : ¬ accepted)
    (same : outcome.2.state = s.state) : Whole s outcome accepted granted where
  done := iff_of_false (fun ⟨_, done⟩ => nomatch failed.symm.trans done) refuses
  succeeded _ done := nomatch failed.symm.trans done
  failed _ _ := same

omit [Board σ] in
theorem Whole.grants (whole : Whole s outcome accepted granted) (accepts : accepted) :
    ∃ a, outcome.1 = .ok a ∧ granted a outcome.2.state := by
  obtain ⟨a, done⟩ := whole.done.mpr accepts
  exact ⟨a, done, whole.succeeded a done⟩

omit [Board σ] in
theorem Whole.keeps (whole : Whole s outcome accepted granted) (refuses : ¬ accepted) : outcome.2.state = s.state := by
  cases result : outcome.1 with
  | ok a => exact absurd (whole.done.mp ⟨a, result⟩) refuses
  | error e => exact whole.failed e result

end

/-- The co-processor answers to a command that it succeeded. -/
def Accepts (command : String) (s : Session σ) : Prop := ∃ answer, s.reply (At.commandLine command) = .ok answer

instance (command : String) (s : Session σ) : Decidable (s.Accepts command) :=
  match reply : s.reply (At.commandLine command) with
  | .ok answer => .isTrue ⟨answer, reply⟩
  | .error _ => .isFalse fun ⟨_, accepted⟩ => nomatch reply.symm.trans accepted

theorem not_accepts {command : String} {s : Session σ} {e : At.CommError}
    (refused : s.reply (At.commandLine command) = .error e) : ¬ s.Accepts command :=
  fun ⟨_, accepted⟩ => nomatch refused.symm.trans accepted

/-! ### Serving -/

/-- The co-processor accepts both commands of serving, one after the other. -/
def AcceptsServing (serverPort : UInt16) (s : Session σ) : Prop :=
  s.Accepts "AT+CIPMUX=1" ∧ (s.moved (At.commandLine "AT+CIPMUX=1")).Accepts (serverCommand serverPort)

instance (serverPort : UInt16) (s : Session σ) : Decidable (s.AcceptsServing serverPort) :=
  inferInstanceAs (Decidable (_ ∧ _))

theorem startServer_whole (serverPort : UInt16) (s : Session σ) :
    Whole s (s.startServer serverPort) (s.AcceptsServing serverPort) fun _ t =>
      t = { s.state with flags := s.state.flags.insert (.union .muxOn .serverOn), serverPort } := by
  have fits : (Utf8.encode "AT+CIPMUX=1").length ≤ At.Channel.commandRoom := by decide
  obtain ⟨t, run, first⟩ := (exchange_reply fits s).shown
  obtain ⟨u, run', second⟩ := (exchange_reply (serverCommand_fits serverPort) t).shown
  rw [first.reply] at run'
  have same : u.state = s.state := second.state.trans first.state
  rw [startServer, run]
  cases reply : s.reply (At.commandLine "AT+CIPMUX=1") with
  | error e => exact .of_error rfl (fun accepts => not_accepts reply accepts.1) first.state
  | ok response =>
    simp only [show t.exchange ("AT+CIPSERVER=1," ++ Numeral.decimal serverPort.toNat) = _ from run']
    cases reply' : (s.moved (At.commandLine "AT+CIPMUX=1")).reply (At.commandLine (serverCommand serverPort)) with
    | error e => exact .of_error rfl (fun accepts => not_accepts reply' accepts.2) same
    | ok response' => exact .of_ok rfl ⟨⟨response, reply⟩, response', reply'⟩ (same ▸ rfl)

/-! ### The state of the station -/

/-- The answer about the station has no code, or one that is not known. -/
def Codeless (answer : At.Response) : Prop :=
  ∀ code, ModemState.codeOf? answer.document "+CWSTATE" = some code → code ∉ ModemState.stationCodes

/-- What a state becomes by the answer about the station. Connected is a station in state 2, and
    then the answer names its access point. -/
def StationTold (answer : At.Response) (s : ModemState) (on : Bool) (t : ModemState) : Prop :=
  ∃ l code, answer.document.property? "+CWSTATE" = some l ∧ l.int? 0 = some code ∧ code ∈ ModemState.stationCodes ∧
    (on = true ↔ code = 2) ∧
    t = { s with ssid := if on then (l.text? 1).getD "" else "", flags := s.flags.set .wifiConnected on }

theorem refreshWifi_cases (s : Session σ) :
    (∃ e, s.refreshWifi.1 = .error e ∧ s.refreshWifi.2.state = s.state ∧
      ∀ answer, s.reply (At.commandLine ModemState.wifiQuery) = .ok answer →
        e = .malformed ModemState.wifiQuery ∧ Codeless answer) ∨
    ∃ answer on, s.reply (At.commandLine ModemState.wifiQuery) = .ok answer ∧ s.refreshWifi.1 = .ok on ∧
      StationTold answer s.state on s.refreshWifi.2.state := by
  have fits : (Utf8.encode ModemState.wifiQuery).length ≤ At.Channel.commandRoom := by decide
  cases reply : s.reply (At.commandLine ModemState.wifiQuery) with
  | error cause =>
    obtain ⟨t, run, alike⟩ := merge_unanswered fits (f := fun d state => state.mergeWifi d) reply
    rw [refreshWifi, run]
    exact .inl ⟨_, rfl, alike.state, nofun⟩
  | ok answer =>
    obtain ⟨t, alike, run⟩ := merge_answered fits (f := fun d state => state.mergeWifi d) reply
    rw [refreshWifi, run]
    rcases ModemState.mergeWifi_eq answer.document with ⟨codeless, malformed⟩ | ⟨l, code, on, line, came, known, two, merges⟩
    · rw [malformed]
      refine .inl ⟨_, rfl, alike.state, ?_⟩
      rintro _ ⟨⟩
      exact ⟨rfl, codeless⟩
    · rw [merges]
      exact .inr ⟨answer, on, rfl, rfl, l, code, line, came, known, two, rfl⟩

/-- An answer that tells about the station has a code that is known. -/
theorem StationTold.coded {answer : At.Response} {s t : ModemState} {on : Bool} (told : StationTold answer s on t) :
    ¬ Codeless answer := by
  obtain ⟨l, code, line, came, known, -⟩ := told
  intro codeless
  refine codeless code ?_ known
  rw [ModemState.codeOf?, line, Option.bind_some, came]

theorem refreshWifi_whole (s : Session σ) :
    Whole s s.refreshWifi (∃ answer, s.reply (At.commandLine ModemState.wifiQuery) = .ok answer ∧ ¬ Codeless answer)
      fun on t => ∃ answer, s.reply (At.commandLine ModemState.wifiQuery) = .ok answer ∧ StationTold answer s.state on t := by
  rcases refreshWifi_cases s with ⟨e, failed, same, told⟩ | ⟨answer, on, reply, succeeded, told⟩
  · refine .of_error failed ?_ same
    rintro ⟨answer, reply, coded⟩
    exact coded (told answer reply).2
  · exact .of_ok succeeded ⟨answer, reply, told.coded⟩ ⟨answer, reply, told⟩

theorem refreshWifi_codeless {answer : At.Response} {s : Session σ}
    (reply : s.reply (At.commandLine ModemState.wifiQuery) = .ok answer) (codeless : Codeless answer) :
    s.refreshWifi.1 = .error (.malformed ModemState.wifiQuery) := by
  rcases refreshWifi_cases s with ⟨e, failed, -, told⟩ | ⟨answer', on, reply', -, told⟩
  · rw [failed, (told answer reply).1]
  · obtain rfl : answer' = answer := Except.ok.inj (reply'.symm.trans reply)
    exact absurd codeless told.coded

/-! ### Power -/

section
variable {command : String} (fits : (Utf8.encode command).length ≤ At.Channel.commandRoom)
  (change : ModemState → ModemState) (s : Session σ)
include fits

/-- A command is committed just if the co-processor accepts it. -/
theorem commit_whole : Whole s (s.commit command change) (s.Accepts command) fun _ t => t = change s.state := by
  obtain ⟨t, run, alike⟩ := (command_reply fits s).shown
  rw [commit, run]
  cases reply : s.reply (At.commandLine command) with
  | ok answer => exact .of_ok rfl ⟨answer, reply⟩ (congrArg change alike.state)
  | error e => exact .of_error rfl (not_accepts reply) alike.state

end

theorem deepSleep_eq (duration : Duration) (s : Session σ) : s.deepSleep duration =
    s.commit (deepSleepCommand duration) fun state => { state with power := .deepSleep } := rfl

/-- The power mode that an operation asks for, and the command that does. -/
def Operation.powerRequest? : Operation σ → Option (String × PowerMode)
  | sleep => some ("AT+SLEEP=1", .sleep)
  | wake => some ("AT+SLEEP=0", .awake)
  | deepSleep duration => some (deepSleepCommand duration, .deepSleep)
  | _ => none

/-- The power mode that an operation asks for and the co-processor accepts. -/
def Operation.granted? (s : Session σ) (o : Operation σ) : Option PowerMode :=
  match o.powerRequest? with
  | some (line, mode) => if s.Accepts line then some mode else none
  | none => none

/-- The power mode that was accepted last. -/
def lastGranted? : List (Operation σ) → Session σ → Option PowerMode
  | [], _ => none
  | o :: os, s => (lastGranted? os (o.perform s)).or (o.granted? s)

theorem refresh_power (s : Session σ) : s.refresh.2.state.power = s.state.power := by
  obtain ⟨answers, -, merged, -⟩ := inquire_ends Inquiry.all s
  rw [refresh_state, (mergeAll_keeps merged).2.power]

theorem perform_power (o : Operation σ) (s : Session σ) :
    (o.perform s).state.power = (o.granted? s).getD s.state.power := by
  have asked {command : String} (fits : (Utf8.encode command).length ≤ At.Channel.commandRoom) (mode : PowerMode) :
      (s.commit command fun state => { state with power := mode }).2.state.power =
        (if s.Accepts command then some mode else none).getD s.state.power := by
    have whole := commit_whole fits (fun state => { state with power := mode }) s
    by_cases accepts : s.Accepts command
    · obtain ⟨-, -, state⟩ := whole.grants accepts
      rw [if_pos accepts, state, Option.getD_some]
    · rw [if_neg accepts, whole.keeps accepts, Option.getD_none]
  cases o with
  | bringUp => exact congrArg ModemState.power (probe_state _ _ _)
  | setEnabled on => cases on <;> rfl
  | command line => exact congrArg ModemState.power (command_state line s)
  | refresh => exact refresh_power s
  | refreshWifi =>
    rcases refreshWifi_cases s with ⟨_, -, same, -⟩ | ⟨_, _, -, -, _, _, -, -, -, -, told⟩
    · exact congrArg ModemState.power same
    · have power := congrArg ModemState.power told
      exact power
  | startServer serverPort =>
    have whole := startServer_whole serverPort s
    by_cases accepts : s.AcceptsServing serverPort
    · obtain ⟨-, -, served⟩ := whole.grants accepts
      have power := congrArg ModemState.power served
      exact power
    · exact congrArg ModemState.power (whole.keeps accepts)
  | send payload peers => exact congrArg ModemState.power (send_state payload peers s)
  | sleep => exact asked (by decide) _
  | wake => exact asked (by decide) _
  | deepSleep duration =>
    rw [Operation.perform, deepSleep_eq]
    exact asked (deepSleep_fits duration) .deepSleep
  | elsewhere f => rfl

theorem performAll_power (operations : List (Operation σ)) (s : Session σ) :
    (performAll operations s).state.power = (lastGranted? operations s).getD s.state.power := by
  induction operations generalizing s with
  | nil => rfl
  | cons o os ih =>
    rw [performAll, ih, perform_power, lastGranted?]
    cases lastGranted? os (o.perform s) <;> rfl

/-- Serving, the query for the state of the station and the power commands succeed just if the
    co-processor accepts what they send, or tells a code that is known. They change the state if
    they succeed, and then in the fields that they are about; if they fail they leave it.
    Bringing up, switching the power, commands and sending always leave it. So after any
    operations the power mode is the one that the co-processor accepted last. -/
theorem state_of_acceptance :
    (∀ s : Session σ,
      (∀ serverPort, Whole s (s.startServer serverPort) (s.AcceptsServing serverPort) fun _ t =>
        t = { s.state with flags := s.state.flags.insert (.union .muxOn .serverOn), serverPort }) ∧
      (Whole s s.refreshWifi
        (∃ answer, s.reply (At.commandLine ModemState.wifiQuery) = .ok answer ∧ ¬ Codeless answer) fun on t =>
          ∃ answer, s.reply (At.commandLine ModemState.wifiQuery) = .ok answer ∧ StationTold answer s.state on t) ∧
      (∀ answer, s.reply (At.commandLine ModemState.wifiQuery) = .ok answer → Codeless answer →
        s.refreshWifi.1 = .error (.malformed ModemState.wifiQuery)) ∧
      (Whole s s.sleep (s.Accepts "AT+SLEEP=1") fun _ t => t = { s.state with power := .sleep }) ∧
      (Whole s s.wake (s.Accepts "AT+SLEEP=0") fun _ t => t = { s.state with power := .awake }) ∧
      (∀ duration, Whole s (s.deepSleep duration) (s.Accepts (deepSleepCommand duration)) fun _ t =>
        t = { s.state with power := .deepSleep }) ∧
      s.bringUp.2.state = s.state ∧ (∀ on, (s.setEnabled on).state = s.state) ∧
      (∀ line, (s.command line).2.state = s.state) ∧ ∀ payload peers, (s.send payload peers).2.state = s.state) ∧
    ∀ (channel : At.Channel σ) (timing : Timing) (operations : List (Operation σ)),
      (performAll operations { channel, timing }).state.power =
        (lastGranted? operations { channel, timing }).getD .awake := by
  refine ⟨fun s => ⟨?_, ?_, ?_, ?_, ?_, ?_, ?_, ?_, ?_, ?_⟩, ?_⟩
  · exact fun serverPort => startServer_whole serverPort s
  · exact refreshWifi_whole s
  · exact fun answer reply codeless => refreshWifi_codeless reply codeless
  · exact commit_whole (by decide) (fun state => { state with power := .sleep }) s
  · exact commit_whole (by decide) (fun state => { state with power := .awake }) s
  · intro duration
    rw [deepSleep_eq]
    exact commit_whole (deepSleep_fits duration) (fun state => { state with power := .deepSleep }) s
  · exact probe_state _ _ _
  · exact fun on => by cases on <;> rfl
  · exact fun line => command_state line s
  · exact fun payload peers => send_state payload peers s
  · exact fun channel timing operations => performAll_power operations { channel, timing }

/-- A session with a co-processor that replies these answers in turn. -/
def replying (answers : List At.Response) : Session Bench :=
  { channel := { board := { modem := { script := answers.map fun answer => { rx := answer.bytes } } } } }

def accepting : At.Response := ⟨Utf8.encode "OK\r\n"⟩

def refusal : At.Response := ⟨Utf8.encode "ERROR\r\n"⟩

/-- The station is connected, and names its access point. -/
def atHome : At.Response := ⟨Utf8.encode "+CWSTATE:2,\"home\"\r\nOK\r\n"⟩

/-- The station tells a code that is not known. -/
def inNoState : At.Response := ⟨Utf8.encode "+CWSTATE:9\r\nOK\r\n"⟩

/-- Serving is refused by the second command and accepted by both. The station tells that it is
    connected, and a code that is not known. A mode that is refused leaves the one before. -/
theorem state_of_acceptance_inPart :
    let refusing := replying [accepting, refusal]
    let serving := replying [accepting, accepting]
    let connected := replying [atHome]
    let unknown := replying [inNoState]
    (refusing.startServer 80).2.state = refusing.state ∧
      (serving.startServer 80).2.state = { serving.state with flags := .union .muxOn .serverOn, serverPort := 80 } ∧
      connected.refreshWifi.1 = .ok true ∧ connected.refreshWifi.2.state.ssid = "home" ∧
      unknown.refreshWifi.1 = .error (.malformed "AT+CWSTATE?") ∧ unknown.refreshWifi.2.state = unknown.state ∧
      (performAll [.sleep, .wake] refusing).state.power = .sleep := by
  intro refusing serving connected unknown
  obtain ⟨laws, power⟩ := state_of_acceptance (σ := Bench)
  obtain ⟨refused, -⟩ := laws refusing
  obtain ⟨served, -⟩ := laws serving
  obtain ⟨-, station, -⟩ := laws connected
  obtain ⟨-, kept, codeless, -⟩ := laws unknown
  have home : connected.reply (At.commandLine ModemState.wifiQuery) = .ok atHome := by decide +kernel
  have nine : unknown.reply (At.commandLine ModemState.wifiQuery) = .ok inNoState := by decide +kernel
  have failed := codeless _ nine fun code came => by
    have told : ModemState.codeOf? inNoState.document "+CWSTATE" = some 9 := by decide +kernel
    obtain rfl := Option.some.inj (told.symm.trans came)
    decide
  refine ⟨(refused 80).keeps (by decide +kernel), ?_, ?_⟩
  · obtain ⟨-, -, state⟩ := (served 80).grants (by decide +kernel)
    exact state.trans (by decide +kernel)
  · obtain ⟨on, done, answer, reply, l, code, line, came, -, two, state⟩ :=
      station.grants ⟨_, home, fun unknown => unknown 2 (by decide +kernel) (by decide)⟩
    obtain rfl := Except.ok.inj (home.symm.trans reply)
    have told : atHome.document.property? "+CWSTATE" =
        some ⟨"+CWSTATE", [⟨"2", .bare, false⟩, ⟨"home", .quoted, false⟩], false⟩ := by decide +kernel
    obtain rfl := Option.some.inj (told.symm.trans line)
    have first : At.ResponseLine.int? ⟨"+CWSTATE", [⟨"2", .bare, false⟩, ⟨"home", .quoted, false⟩], false⟩ 0 = some 2 := by
      decide +kernel
    obtain rfl : on = true := two.mpr (Option.some.inj (came.symm.trans first))
    refine ⟨done, ?_, failed, kept.failed _ failed, ?_⟩
    · rw [state]
      decide +kernel
    · have fresh : refusing = { channel := refusing.channel, timing := {} } := rfl
      rw [fresh, power]
      decide +kernel

end AirMonitor.Session
