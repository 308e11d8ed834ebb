import AirMonitor.Proofs.Modem.PeerTable
import AirMonitor.Proofs.Output.WifiReports

/-!
A link that is down. A table whose status is 0, 1 or 5 says that the server is out of reach,
and its flag goes. The flag of a peer that has connected goes too, but it comes back with the
lines of the same table, if one of them describes such a peer (`visited_while_down`). So the
wifi sink is silent behind such a table as long as no table lists a peer that has connected
(`silent_while_down`).
-/
namespace AirMonitor

namespace ModemState

/-- The status codes of a link that is down. -/
def downCodes : List Int := [0, 1, 5]

/-- The table lists no peer that has connected. -/
def Unvisited (d : At.Document) : Prop := ∀ c ∈ clientsOf d, c.passive = false

instance (d : At.Document) : Decidable (Unvisited d) := inferInstanceAs (Decidable (∀ c ∈ clientsOf d, c.passive = false))

variable {d : At.Document} {code : Int}

theorem mergeConnections_down (came : codeOf? d "STATUS" = some code) (down : code ∈ downCodes) (s : ModemState) :
    s.mergeConnections d =
      .ok { s with flags := Inquiry.linked false (clientsOf d) s.flags, clients := clientsOf d } := by
  have unreachable : ∀ code ∈ downCodes, serverReachable? code = some false := by decide
  exact Inquiry.mergeConnections_known (by rw [came, Option.bind_some, unreachable code down]) s

/-- The flag of the peers that have connected is told by the list, whatever the status is. -/
theorem Listed.unvisited {s : ModemState} (listed : s.Listed) :
    s.flags.contains .clientConnected = false ↔ ∀ c ∈ s.clients, c.passive = false := by
  rw [listed.passive, List.any_eq_false]
  simp

end ModemState

namespace Session
variable {σ : Type} [Board σ]

theorem refresh_listed {s : Session σ} {answer : At.Response} (table : Operation.refresh.table? s = some answer) :
    s.refresh.2.state.Listed := by
  rcases refresh_connections s with ⟨no_table, -⟩ | ⟨answer, u, v, -, merged, same⟩
  · cases no_table.symm.trans table
  · exact (ModemState.listed_of_merged merged).same same

theorem refresh_serverOn {s : Session σ} {answer : At.Response} (table : Operation.refresh.table? s = some answer)
    {code : Int} (came : ModemState.codeOf? answer.document "STATUS" = some code) (down : code ∈ ModemState.downCodes) :
    s.refresh.2.state.flags.contains .serverOn = false := by
  rcases refresh_connections s with ⟨no_table, -⟩ | ⟨answer', u, v, table', merged, same⟩
  · cases no_table.symm.trans table
  · obtain rfl : answer' = answer := Option.some.inj (table'.symm.trans table)
    obtain rfl := Except.ok.inj (merged.symm.trans (ModemState.mergeConnections_down came down u))
    rw [same.flags .serverOn (by decide)]
    exact Inquiry.linked_serverOn _ _ _

end Session

namespace Station
variable {σ : Type} [Board σ]

/-- The connection table that an action merges. -/
def Action.table? (s : Station σ) : Action σ → Option At.Response
  | session o => o.table? s.session
  | _ => none

def performAll : List (Action σ) → Station σ → Station σ
  | [], s => s
  | a :: actions, s => performAll actions (a.perform s)

/-- None of the tables that the actions merge lists a peer that has connected. -/
def Unvisited : List (Action σ) → Station σ → Prop
  | [], _ => True
  | a :: actions, s =>
    (∀ answer, a.table? s = some answer → ModemState.Unvisited answer.document) ∧ Unvisited actions (a.perform s)

theorem perform_clients (a : Action σ) (s : Station σ) :
    (a.perform s).session.state.clients =
      ((a.table? s).elim s.session.state.clients fun answer => ModemState.clientsOf answer.document) := by
  cases a with
  | session o => exact Session.perform_clients o s.session
  | sendConsole payload => exact congrArg ModemState.clients (sendConsole_state payload s)
  | sendWifi payload => exact congrArg ModemState.clients (sendWifi_state payload s)
  | pollAttach => exact congrArg ModemState.clients (pollAttach_state s)
  | insert flags => rfl
  | remove flags => rfl
  | assign flags on => rfl
  | clear => rfl
  | showLinks modem => rfl

/-- A station that lists no peer that has connected. -/
structure Quiet (s : Station σ) : Prop where
  listed : s.session.state.Listed
  unvisited : ∀ c ∈ s.session.state.clients, c.passive = false

theorem Quiet.perform {s : Station σ} (quiet : Quiet s) {a : Action σ}
    (unvisited : ∀ answer, a.table? s = some answer → ModemState.Unvisited answer.document) : Quiet (a.perform s) := by
  refine ⟨perform_listed a quiet.listed, ?_⟩
  rw [perform_clients]
  cases table : a.table? s with
  | none => exact quiet.unvisited
  | some answer => exact unvisited answer table

theorem Quiet.performAll {actions : List (Action σ)} {s : Station σ} (quiet : Quiet s) (unvisited : Unvisited actions s) :
    Quiet (performAll actions s) := by
  induction actions generalizing s with
  | nil => exact quiet
  | cons a actions ih => exact ih (quiet.perform unvisited.1) unvisited.2

theorem Quiet.sendWifi {s : Station σ} (quiet : Quiet s) (payload : Bytes) :
    s.sendWifi payload = (.error .notConnected, s) := by
  rw [Station.sendWifi, quiet.listed.unvisited.mpr quiet.unvisited, if_neg Bool.false_ne_true]

/-- A table of a link that is down takes the server's flag, and leaves that of the peers that
    have connected just if it lists one. Behind such a table the wifi sink does nothing, as
    long as no table lists a peer that has connected. -/
theorem silent_while_down :
    (∀ (d : At.Document) (code : Int), ModemState.codeOf? d "STATUS" = some code → code ∈ ModemState.downCodes →
      ∀ s : ModemState, ∃ t, s.mergeConnections d = .ok t ∧ t.flags.contains .serverOn = false ∧
        (t.flags.contains .clientConnected = false ↔ ModemState.Unvisited d)) ∧
    ∀ (s : Station σ) (answer : At.Response) (code : Int), Session.Operation.refresh.table? s.session = some answer →
      ModemState.codeOf? answer.document "STATUS" = some code → code ∈ ModemState.downCodes →
      ModemState.Unvisited answer.document →
      let t := (Action.session .refresh).perform s
      t.session.state.flags.contains .serverOn = false ∧ t.session.state.flags.contains .clientConnected = false ∧
        ∀ actions, Unvisited actions t → ∀ payload,
          (performAll actions t).sendWifi payload = (.error .notConnected, performAll actions t) := by
  constructor
  · intro d code came down s
    have merged := ModemState.mergeConnections_down came down s
    exact ⟨_, merged, Inquiry.linked_serverOn _ _ _, (ModemState.listed_of_merged merged).unvisited⟩
  · intro s answer code table came down unvisited t
    have quiet : Quiet t := by
      refine ⟨Session.refresh_listed table, ?_⟩
      have clients : t.session.state.clients = ModemState.clientsOf answer.document := by
        rw [perform_clients, Action.table?, table, Option.elim_some]
      rw [clients]
      exact unvisited
    refine ⟨Session.refresh_serverOn table came down, quiet.listed.unvisited.mpr quiet.unvisited, ?_⟩
    exact fun actions unvisited payload => (quiet.performAll unvisited).sendWifi payload

/-- A table of a link that is down and has no peers. -/
def quietTable : At.Response where
  bytes := Utf8.encode "STATUS:5\r\nOK\r\n"

/-- A station that knows a peer that has connected, and will be told that the link is down. -/
def forsaken : Station Bench where
  session := {
    channel := { board := { modem := { script :=
      [{ rx := Utf8.encode "OK\r\n" }, { rx := quietTable.bytes }, { rx := Utf8.encode "+CIPMUX:1\r\nOK\r\n" }] } } }
    state := { flags := .union .serverOn .clientConnected, clients := [⟨0, .tcp, "10.0.0.9", 80, 333, true⟩] } }

theorem silent_while_down_forsaken :
    let t := (Action.session .refresh).perform forsaken
    forsaken.session.state.flags.contains .clientConnected = true ∧
      t.session.state.flags.contains .clientConnected = false ∧ ∀ payload, t.sendWifi payload = (.error .notConnected, t) := by
  have known : forsaken.session.state.flags.contains .clientConnected = true := by decide
  have table : Session.Operation.refresh.table? forsaken.session = some quietTable := by decide +kernel
  have came : ModemState.codeOf? quietTable.document "STATUS" = some 5 := by decide +kernel
  have unvisited : ModemState.Unvisited quietTable.document := by decide +kernel
  obtain ⟨-, forgotten, silent⟩ := silent_while_down.2 forsaken quietTable 5 table came (by decide) unvisited
  exact ⟨known, forgotten, silent [] trivial⟩

/-- A table of a link that is down and of a peer that has connected. -/
def visitedTable : At.Response where
  bytes := Utf8.encode "STATUS:5\r\n+CIPSTATUS:0,\"TCP\",\"10.0.0.9\",80,333,1\r\n\r\nOK\r\n"

/-- The flag of the peers that have connected is set again by the table that takes it. -/
theorem visited_while_down :
    ¬ ∀ (s t : ModemState) (answer : At.Response) (code : Int), ModemState.codeOf? answer.document "STATUS" = some code →
      code ∈ ModemState.downCodes → s.mergeConnections answer.document = .ok t →
        t.flags.contains .serverOn = false ∧ t.flags.contains .clientConnected = false := by
  intro every
  have came : ModemState.codeOf? visitedTable.document "STATUS" = some 5 := by decide +kernel
  have visited : ¬ ModemState.Unvisited visitedTable.document := by decide +kernel
  have merged := ModemState.mergeConnections_down came (by decide) {}
  have cleared := (every _ _ visitedTable 5 came (by decide) merged).2
  exact visited ((ModemState.listed_of_merged merged).unvisited.mp cleared)

end Station
end AirMonitor
