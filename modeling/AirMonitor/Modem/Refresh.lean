import AirMonitor.Modem.Session

/-!
Asking the co-processor for its status. A refresh puts three queries in a row and
merges each answer before it puts the next; the first that fails ends it, and what
was merged before stays.
-/
namespace AirMonitor.Session
variable {σ : Type} [Board σ]

/-- Puts a query and merges its answer. -/
def merge {α : Type} (query : String) (f : At.Document → ModemState → Except ModemError (α × ModemState))
    (s : Session σ) : Except ModemError α × Session σ :=
  match s.query query with
  | (.error e, s) => (.error e, s)
  | (.ok d, s) =>
    match f d s.state with
    | .error e => (.error e, s)
    | .ok (a, state) => (.ok a, { s with state })

/-- Asks for the station's address. -/
def refreshStation (s : Session σ) : Except ModemError Unit × Session σ :=
  s.merge ModemState.stationQuery fun d state => .ok ((), state.mergeStation d)

/-- Asks for the connection table. -/
def refreshConnections (s : Session σ) : Except ModemError Unit × Session σ :=
  s.merge ModemState.connectionQuery fun d state => (state.mergeConnections d).map ((), ·)

/-- Asks whether more than one connection may be open. -/
def refreshMux (s : Session σ) : Except ModemError Unit × Session σ :=
  s.merge ModemState.muxQuery fun d state => (state.mergeMux d).map ((), ·)

/-- The three queries of a refresh. -/
def refreshAll (s : Session σ) : Except ModemError ModemFlags × Session σ :=
  match s.refreshStation with
  | (.error e, s) => (.error e, s)
  | (.ok (), s) =>
    match s.refreshConnections with
    | (.error e, s) => (.error e, s)
    | (.ok (), s) =>
      match s.refreshMux with
      | (.error e, s) => (.error e, s)
      | (.ok (), s) => (.ok s.state.flags, s)

/-- Refreshes the status and logs a failure. -/
def refresh (s : Session σ) : Except ModemError ModemFlags × Session σ :=
  match s.refreshAll with
  | (.ok flags, s) => (.ok flags, s)
  | (.error e, s) => (.error e, s.note .warn ["status refresh: ", e.message])

/-- Asks for the state of the station and its access point. -/
def refreshWifi (s : Session σ) : Except ModemError Bool × Session σ :=
  s.merge ModemState.wifiQuery fun d state => state.mergeWifi d

end AirMonitor.Session
