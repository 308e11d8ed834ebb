import AirMonitor.Proofs.Modem.Operations
import AirMonitor.Proofs.At.Lines

/-!
The peers that a session lists. Only a refresh writes the list, and only from its second
reply, when that has a status code (`perform_clients`). So after any run the list comes from
the last such reply: it has the first eight peers that the lines kept of that reply describe,
and the flags of the connections agree with it (`peers_of_lastTable`). A line behind the
ten that are kept does not count, although it describes a peer (`late_peers_unlisted`).
-/
namespace AirMonitor

namespace Client

/-- A line of the connection table has all six fields of a peer, in range. -/
structure DescribedBy (c : Client) (l : At.ResponseLine) : Prop where
  link : l.int? 0 = some (c.link.toNat : Int)
  protocol : ∃ name, l.text? 1 = some name ∧ c.protocol = .ofName name
  address : l.text? 2 = some c.address
  remotePort : l.int? 3 = some (c.remotePort.toNat : Int)
  localPort : l.int? 4 = some (c.localPort.toNat : Int)
  passive : ∃ opened, l.int? 5 = some opened ∧ (c.passive = true ↔ opened ≠ 0)

theorem inRange_eq_some_iff {bound n : Nat} {x : Int} : inRange bound x = some n ↔ x = n ∧ n < bound := by
  unfold inRange
  by_cases within : 0 ≤ x ∧ x < bound
  · rw [if_pos within, Option.some.injEq]
    omega
  · rw [if_neg within]
    constructor
    · nofun
    · rintro ⟨rfl, below⟩
      omega

theorem ofLine?_eq_some_iff {l : At.ResponseLine} {c : Client} : ofLine? l = some c ↔ c.DescribedBy l := by
  simp only [ofLine?, Option.bind_eq_bind, Option.bind_eq_some_iff, Option.pure_def, inRange_eq_some_iff]
  constructor
  · rintro ⟨_, link, m, ⟨rfl, link_lt⟩, name, protocol, address, addressed, _, remotePort, n, ⟨rfl, remote_lt⟩, _,
      localPort, k, ⟨rfl, local_lt⟩, opened, passive, ⟨⟩⟩
    refine ⟨?_, ⟨name, protocol, rfl⟩, addressed, ?_, ?_, opened, passive, by simp⟩
    · rw [link, UInt8.toNat_ofNat_of_lt' link_lt]
    · rw [remotePort, UInt16.toNat_ofNat_of_lt' remote_lt]
    · rw [localPort, UInt16.toNat_ofNat_of_lt' local_lt]
  · rintro ⟨link, ⟨name, named, protocol⟩, address, remotePort, localPort, opened, passive, open_iff⟩
    refine ⟨_, link, _, ⟨rfl, c.link.toNat_lt⟩, name, named, c.address, address, _, remotePort, _,
      ⟨rfl, c.remotePort.toNat_lt⟩, _, localPort, _, ⟨rfl, c.localPort.toNat_lt⟩, opened, passive, ?_⟩
    have side : decide (opened ≠ 0) = c.passive := by rw [Bool.eq_iff_iff, decide_eq_true_iff, open_iff]
    rw [side, UInt8.ofNat_toNat, UInt16.ofNat_toNat, UInt16.ofNat_toNat, ← protocol]

/-- The peers that lines of a connection table describe, as many as there is room for. -/
def listed (lines : List At.ResponseLine) : List Client :=
  ((lines.filter (·.preamble = "+CIPSTATUS")).filterMap ofLine?).take room

end Client

theorem ModemState.clientsOf_eq (answer : At.Response) :
    clientsOf answer.document = Client.listed ((At.readableLines answer.bytes).take At.lineRoom) := by
  rw [clientsOf, At.Document.linesWith, At.Response.document, At.lines_tokenize, Client.listed]

theorem ModemState.serverReachable?_isSome (code : Int) :
    (serverReachable? code).isSome = decide (0 ≤ code ∧ code ≤ 5) := by
  unfold serverReachable?
  split_ifs with down up
  · simp only [Option.isSome_some]
    exact (decide_eq_true (by omega)).symm
  · simp only [Option.isSome_some]
    exact (decide_eq_true (by omega)).symm
  · simp only [Option.isSome_none]
    exact (decide_eq_false (by omega)).symm

namespace Session
variable {σ : Type} [Board σ]

/-! ### The table that is merged -/

/-- The connection table in a reply, if it has a status code. -/
def tableIn? (reply : Except At.CommError At.Response) : Option At.Response :=
  match reply with
  | .ok answer =>
    if (ModemState.codeOf? answer.document "STATUS").any fun code => decide (0 ≤ code ∧ code ≤ 5) then some answer
    else none
  | .error _ => none

/-- The connection table that an operation merges: the second of the replies to a refresh. -/
def Operation.table? (s : Session σ) : Operation σ → Option At.Response
  | refresh => (s.heard Inquiry.all)[1]?.bind tableIn?
  | _ => none

def performAll : List (Operation σ) → Session σ → Session σ
  | [], s => s
  | o :: os, s => performAll os (o.perform s)

/-- The connection table that was merged last. -/
def lastTable? : List (Operation σ) → Session σ → Option At.Response
  | [], _ => none
  | o :: os, s => (lastTable? os (o.perform s)).or (o.table? s)

theorem any_code_eq (answer : At.Response) :
    (ModemState.codeOf? answer.document "STATUS").any (fun code => decide (0 ≤ code ∧ code ≤ 5)) =
      ((ModemState.codeOf? answer.document "STATUS").bind ModemState.serverReachable?).isSome := by
  cases ModemState.codeOf? answer.document "STATUS" with
  | none => rfl
  | some code => exact (ModemState.serverReachable?_isSome code).symm

theorem tableIn?_of_merged {answer : At.Response} {s t : ModemState}
    (merged : s.mergeConnections answer.document = .ok t) : tableIn? (.ok answer) = some answer := by
  cases known : (ModemState.codeOf? answer.document "STATUS").bind ModemState.serverReachable? with
  | none => cases (Inquiry.mergeConnections_unknown known s).symm.trans merged
  | some reachable =>
    simp only [tableIn?, any_code_eq, known]
    rfl

theorem tableIn?_of_failed {reply : Except At.CommError At.Response} {s : ModemState} {e : ModemError}
    (failed : Inquiry.connections.outcome reply s = .error e) : tableIn? reply = none := by
  cases reply with
  | error cause => rfl
  | ok answer =>
    cases known : (ModemState.codeOf? answer.document "STATUS").bind ModemState.serverReachable? with
    | none =>
      simp only [tableIn?, any_code_eq, known]
      rfl
    | some reachable => cases failed.symm.trans (Inquiry.mergeConnections_known known s)

theorem clients_of_merged {d : At.Document} {s t : ModemState} (merged : s.mergeConnections d = .ok t) :
    t.clients = ModemState.clientsOf d := by
  rcases Inquiry.mergeConnections_eq d with malformed | ⟨reachable, merges⟩
  · cases (malformed s).symm.trans merged
  · obtain rfl := Except.ok.inj ((merges s).symm.trans merged)
    rfl

/-- What a refresh knows about the connections comes from the table that it merges, or is as it was. -/
theorem refresh_connections (s : Session σ) :
    (Operation.refresh.table? s = none ∧ Inquiry.connections.Same s.state s.refresh.2.state) ∨
      ∃ (answer : At.Response) (u v : ModemState), Operation.refresh.table? s = some answer ∧
        u.mergeConnections answer.document = .ok v ∧
        Inquiry.connections.Same v s.refresh.2.state := by
  obtain ⟨answers, heard, merged, ended⟩ := inquire_ends Inquiry.all s
  rw [← refresh_state] at merged ended
  -- By how many answers were merged: the second is the table.
  rcases answers with _ | ⟨station, _ | ⟨answer, more⟩⟩
  · obtain ⟨i, reply, e, first, came, failed⟩ := ended.resolve_left (by decide)
    obtain rfl : Inquiry.station = i := Option.some.inj first
    have came : s.reply Inquiry.station.wire = reply := by
      rw [List.length_nil, ← List.head?_eq_getElem?, Inquiry.all, head?_heard] at came
      exact Option.some.inj came
    have silent : s.heard Inquiry.all = [reply] := by
      cases reply with
      | error cause => exact (replies_failed came _).1
      | ok response =>
        -- An answer about the station can always be merged.
        cases failed
    exact .inl ⟨by rw [Operation.table?, silent]; rfl, (mergeAll_keeps merged).1 .connections (by decide)⟩
  · obtain ⟨i, reply, e, second, came, failed⟩ := ended.resolve_left (by simp [Inquiry.all])
    obtain rfl : Inquiry.connections = i := Option.some.inj second
    refine .inl ⟨?_, (mergeAll_keeps merged).1 .connections (by simp [Inquiry.all])⟩
    rw [Operation.table?, show (s.heard Inquiry.all)[1]? = some reply from came, Option.bind_some,
      tableIn?_of_failed failed]
  · obtain ⟨rest, heard⟩ := heard
    have came : (s.heard Inquiry.all)[1]? = some (.ok answer) := by rw [← heard]; rfl
    have merged : mergeAll ((.connections, answer) :: [Inquiry.mux].zip more) (s.state.mergeStation station.document) =
        .ok s.refresh.2.state := merged
    cases one : Inquiry.connections.merge answer.document (s.state.mergeStation station.document) with
    | error e =>
      rw [mergeAll, one] at merged
      cases merged
    | ok v =>
      rw [mergeAll, one] at merged
      refine .inr ⟨answer, _, v, ?_, one, (mergeAll_keeps merged).1 .connections ?_⟩
      · rw [Operation.table?, came, Option.bind_some]
        exact tableIn?_of_merged one
      · intro member
        obtain ⟨pair, among, own⟩ := List.mem_map.mp member
        have other := (List.of_mem_zip among).1
        rw [own] at other
        exact absurd other (by decide)

/-- A refresh lists the peers in its second reply, or leaves the list. -/
theorem refresh_clients (s : Session σ) :
    s.refresh.2.state.clients =
      ((Operation.refresh.table? s).elim s.state.clients fun answer => ModemState.clientsOf answer.document) := by
  rcases refresh_connections s with ⟨table, same⟩ | ⟨answer, u, v, table, merged, same⟩
  · rw [table, same.clients rfl, Option.elim_none]
  · rw [table, same.clients rfl, clients_of_merged merged, Option.elim_some]

/-- An operation lists the peers in the table that it merges, or leaves the list. -/
theorem perform_clients (o : Operation σ) (s : Session σ) :
    (o.perform s).state.clients =
      ((o.table? s).elim s.state.clients fun answer => ModemState.clientsOf answer.document) := by
  have power (command : String) (mode : PowerMode) :
      (s.commit command fun state => { state with power := mode }).2.state.clients = s.state.clients := by
    rcases commit_state command (fun state => { state with power := mode }) s with state | state <;> rw [state]
  cases o with
  | bringUp => exact congrArg ModemState.clients (probe_state _ _ _)
  | setEnabled on => cases on <;> rfl
  | command line => exact congrArg ModemState.clients (command_state line s)
  | refresh => exact refresh_clients s
  | refreshWifi =>
    rcases merge_state ModemState.wifiQuery (fun d state => state.mergeWifi d) s with state | ⟨d, on, merged⟩
    · exact congrArg ModemState.clients state
    · rcases ModemState.mergeWifi_eq d with ⟨-, malformed⟩ | ⟨l, code, up, -, -, -, -, merges⟩
      · rw [malformed] at merged
        cases merged
      · exact congrArg (fun out => ModemState.clients (Prod.snd out)) (Except.ok.inj (merged.symm.trans (merges s.state)))
  | startServer serverPort =>
    show (s.startServer serverPort).2.state.clients = s.state.clients
    rcases startServer_state serverPort s with state | state <;> rw [state]
  | send payload peers => exact congrArg ModemState.clients (send_state payload peers s)
  | sleep => exact power _ _
  | wake => exact power _ _
  | deepSleep duration =>
    have untouched : (Operation.deepSleep duration : Operation σ).table? s = none := rfl
    rw [untouched, Option.elim_none, Operation.perform, deepSleep]
    exact power _ _
  | elsewhere f => rfl

theorem performAll_clients (operations : List (Operation σ)) (s : Session σ) :
    (performAll operations s).state.clients =
      ((lastTable? operations s).elim s.state.clients fun answer => ModemState.clientsOf answer.document) := by
  induction operations generalizing s with
  | nil => rfl
  | cons o os ih =>
    rw [performAll, ih, lastTable?, perform_clients]
    cases lastTable? os (o.perform s) <;> rfl

theorem performAll_listed (operations : List (Operation σ)) {s : Session σ} (listed : s.state.Listed) :
    (performAll operations s).state.Listed := by
  induction operations generalizing s with
  | nil => exact listed
  | cons o os ih => exact ih (perform_listed o listed)

/-- After any operations the flags of the connections tell whether a peer is listed that
    opened its connection, or one that did not. The list has at most eight peers: the first
    that the lines kept of the connection table that was merged last describe in full. -/
theorem peers_of_lastTable (channel : At.Channel σ) (timing : Timing) (operations : List (Operation σ)) :
    let start : Session σ := { channel, timing }
    let s := (performAll operations start).state
    (s.flags.contains .clientConnected = true ↔ ∃ c ∈ s.clients, c.passive = true) ∧
    (s.flags.contains .asClient = true ↔ ∃ c ∈ s.clients, c.passive = false) ∧
    s.clients.length ≤ 8 ∧
    s.clients = (lastTable? operations start).elim []
      (fun answer => Client.listed ((At.readableLines answer.bytes).take At.lineRoom)) ∧
    ∀ l c, Client.ofLine? l = some c ↔ c.DescribedBy l := by
  intro start s
  have listed : s.Listed := performAll_listed operations ModemState.listed_default
  have clients : s.clients = (lastTable? operations start).elim []
      (fun answer => Client.listed ((At.readableLines answer.bytes).take At.lineRoom)) := by
    refine (performAll_clients operations start).trans ?_
    cases lastTable? operations start with
    | none => rfl
    | some answer => exact ModemState.clientsOf_eq answer
  refine ⟨?_, ?_, ?_, clients, fun l c => Client.ofLine?_eq_some_iff⟩
  · rw [listed.passive, List.any_eq_true]
  · rw [listed.active, List.any_eq_true]
    simp
  · rw [clients]
    cases lastTable? operations start with
    | none => exact Nat.zero_le _
    | some answer => exact List.length_take_le _ _

/-- A line of a connection table, with what is left open of its peer. -/
def tableLine (link side : String) : Bytes :=
  ["+CIPSTATUS:", link, ",\"TCP\",\"10.0.0.9\",80,333,", side, "\r\n"].flatMap Utf8.encode

/-- A connection table of eleven lines, of which the second and the third describe no peer. -/
def crowdedTable : At.Response where
  bytes := Utf8.encode "STATUS:3\r\n" ++ tableLine "300" "1" ++ Utf8.encode "+CIPSTATUS:1,\"TCP\"\r\n" ++
    ["0", "1", "2", "3", "4", "5", "6"].flatMap (tableLine · "1") ++ tableLine "7" "0" ++ Utf8.encode "\r\nOK\r\n"

/-- A board whose co-processor answers a refresh with that table. -/
def crowdedBench : Bench where
  modem.script := [{ rx := Utf8.encode "OK\r\n" }, { rx := crowdedTable.bytes }, { rx := Utf8.encode "+CIPMUX:1\r\nOK\r\n" }]

/-- The last line of the table is not kept, so the peer that it describes is not listed. -/
theorem late_peers_unlisted :
    ¬ ∀ (channel : At.Channel Bench) (operations : List (Operation Bench)),
      (performAll operations { channel }).state.clients =
        (lastTable? operations { channel }).elim [] (fun answer => Client.listed (At.readableLines answer.bytes)) := by
  intro every
  have table : lastTable? [.refresh] { channel := { board := crowdedBench } } = some crowdedTable := by decide +kernel
  have described : (Client.listed (At.readableLines crowdedTable.bytes)).length = 8 := by decide +kernel
  have kept : (performAll [.refresh] { channel := { board := crowdedBench } }).state.clients.length = 7 := by
    decide +kernel
  have all := every { board := crowdedBench } [.refresh]
  rw [table, Option.elim_some] at all
  rw [all, described] at kept
  cases kept

end Session
end AirMonitor
