import AirMonitor.Proofs.At.Numbers
import AirMonitor.Proofs.Modem.Acceptance

/-!
Where the numbers come from that a session merges. A code, a port, a link and the side that
opened a connection are each read from one field of an answer (`NumberIn`,
`Client.NumbersIn`). The field writes the number, or the part of it that is kept does, and
then the line tells that something was cut (`numbers_reported`).
-/
namespace AirMonitor

/-- A line of a response that has a preamble has a number at a place. -/
def NumberIn (raw : Bytes) (preamble : String) (place : Nat) (x : Int) : Prop :=
  ∃ line ∈ At.splitLines raw, ∃ l, At.LineReading.ofBytes line = .line l ∧ l.preamble = preamble ∧
    At.NumberAt line l place x

/-- The numbers of a peer stand in one line of a response. -/
def Client.NumbersIn (raw : Bytes) (c : Client) : Prop :=
  ∃ line ∈ At.splitLines raw, ∃ l, At.LineReading.ofBytes line = .line l ∧ l.preamble = "+CIPSTATUS" ∧
    At.NumberAt line l 0 c.link.toNat ∧ At.NumberAt line l 3 c.remotePort.toNat ∧
    At.NumberAt line l 4 c.localPort.toNat ∧ ∃ opened, At.NumberAt line l 5 opened ∧ (c.passive = true ↔ opened ≠ 0)

namespace ModemState

/-- The status and the numbers of the peers that a state tells stand in a table. -/
structure TableReported (table : At.Response) (s : ModemState) : Prop where
  status : ∃ code, NumberIn table.bytes "STATUS" 0 code ∧
    serverReachable? code = some (s.flags.contains .serverOn)
  peers : ∀ c ∈ s.clients, c.NumbersIn table.bytes

/-- Whether several connections may be open, as a state tells, stands in an answer. -/
def ModeReported (answer : At.Response) (s : ModemState) : Prop :=
  ∃ mode, NumberIn answer.bytes "+CIPMUX" 0 mode ∧ (s.flags.contains .muxOn = true ↔ mode ≠ 0)

variable {answer : At.Response}

theorem numberIn_of_codeOf? {preamble : String} {code : Int} (came : codeOf? answer.document preamble = some code) :
    NumberIn answer.bytes preamble 0 code := by
  obtain ⟨l, found, number⟩ := Option.bind_eq_some_iff.mp came
  obtain ⟨line, within, reads⟩ := At.line_of_mem_tokenize (List.mem_of_find?_eq_some found)
  exact ⟨line, within, l, reads, by simpa using List.find?_some found, At.numberAt_of_int? reads number⟩

theorem numbersIn_of_mem {c : Client} (member : c ∈ clientsOf answer.document) : c.NumbersIn answer.bytes := by
  obtain ⟨l, among, describes⟩ := List.mem_filterMap.mp (List.mem_of_mem_take member)
  obtain ⟨kept, preamble⟩ := List.mem_filter.mp among
  obtain ⟨line, within, reads⟩ := At.line_of_mem_tokenize kept
  have described := Client.ofLine?_eq_some_iff.mp describes
  obtain ⟨opened, number, side⟩ := described.passive
  refine ⟨line, within, l, reads, by simpa using preamble, ?_, ?_, ?_, opened, ?_, side⟩
  · exact At.numberAt_of_int? reads described.link
  · exact At.numberAt_of_int? reads described.remotePort
  · exact At.numberAt_of_int? reads described.localPort
  · exact At.numberAt_of_int? reads number

theorem table_of_merged {u v : ModemState} (merged : u.mergeConnections answer.document = .ok v) :
    TableReported answer v := by
  cases known : (codeOf? answer.document "STATUS").bind serverReachable? with
  | none => cases (Inquiry.mergeConnections_unknown known u).symm.trans merged
  | some reachable =>
    obtain rfl := Except.ok.inj ((Inquiry.mergeConnections_known known u).symm.trans merged)
    obtain ⟨code, came, tells⟩ := Option.bind_eq_some_iff.mp known
    refine ⟨⟨code, numberIn_of_codeOf? came, ?_⟩, fun c member => numbersIn_of_mem member⟩
    rw [tells, Inquiry.linked_serverOn]

theorem mode_of_merged {u v : ModemState} (merged : u.mergeMux answer.document = .ok v) : ModeReported answer v := by
  unfold mergeMux at merged
  cases came : codeOf? answer.document "+CIPMUX" with
  | none => simp [came] at merged
  | some mode =>
    simp only [came, Except.ok.injEq] at merged
    refine ⟨mode, numberIn_of_codeOf? came, ?_⟩
    have single : ModemFlags.muxOn.Single := ModemFlags.single_of_mem (by decide)
    have whole : ModemFlags.muxOn.contains .muxOn = true := by decide
    rw [← merged, ModemFlags.contains_set single, if_pos whole, decide_eq_true_iff]

end ModemState

namespace Session
variable {σ : Type} [Board σ]

theorem refresh_table (s : Session σ) : Inquiry.connections.Same s.state s.refresh.2.state ∨
    ∃ table, (s.heard Inquiry.all)[1]? = some (.ok table) ∧ ModemState.TableReported table s.refresh.2.state := by
  rcases refresh_told .connections s with same | ⟨place, table, u, v, own, heard, merged, same⟩
  · exact .inl same
  · obtain rfl : place = 1 := Inquiry.place_unique own rfl
    obtain ⟨status, peers⟩ := ModemState.table_of_merged merged
    refine .inr ⟨table, heard, ?_, ?_⟩
    · rwa [same.flags .serverOn (by decide)]
    · rwa [same.clients rfl]

theorem refresh_mode (s : Session σ) : Inquiry.mux.Same s.state s.refresh.2.state ∨
    ∃ answer, (s.heard Inquiry.all)[2]? = some (.ok answer) ∧ ModemState.ModeReported answer s.refresh.2.state := by
  rcases refresh_told .mux s with same | ⟨place, answer, u, v, own, heard, merged, same⟩
  · exact .inl same
  · obtain rfl : place = 2 := Inquiry.place_unique own rfl
    refine .inr ⟨answer, heard, ?_⟩
    rw [ModemState.ModeReported, same.flags .muxOn (by decide)]
    exact ModemState.mode_of_merged merged

/-- A token is a number just if it is bare and the kept part of its field writes one of 32 bits.
    That part is the whole field unless the token, and with it the line, tells that it was cut.
    Every number that a refresh or the query for the state of the station merges is of this kind. -/
theorem numbers_reported :
    (∀ raw, ∀ l ∈ (At.tokenize raw).lines, ∃ line ∈ At.splitLines raw, At.LineReading.ofBytes line = .line l ∧
      ∀ (place : Nat) (t : At.Token), l.tokens[place]? = some t →
        ∃ field, (At.fields (At.payload line))[place]? = some field ∧
        At.kept field <+: field ∧ (l.truncated = false → t.truncated = false) ∧
        (t.kind = .bare → (t.truncated = false ↔ At.kept field = field)) ∧
        ∀ x, t.int? = some x ↔
          t.kind = .bare ∧ At.Writes (At.kept field) x ∧ -0x80000000 ≤ x ∧ x ≤ 0x7fffffff) ∧
    ∀ s : Session σ,
      (Inquiry.connections.Same s.state s.refresh.2.state ∨ ∃ table,
        (s.heard Inquiry.all)[1]? = some (.ok table) ∧ ModemState.TableReported table s.refresh.2.state) ∧
      (Inquiry.mux.Same s.state s.refresh.2.state ∨ ∃ answer,
        (s.heard Inquiry.all)[2]? = some (.ok answer) ∧ ModemState.ModeReported answer s.refresh.2.state) ∧
      ∀ on, s.refreshWifi.1 = .ok on → ∃ answer, s.reply (At.commandLine ModemState.wifiQuery) = .ok answer ∧
        ∃ code, NumberIn answer.bytes "+CWSTATE" 0 code ∧ code ∈ ModemState.stationCodes ∧ (on = true ↔ code = 2) := by
  constructor
  · intro raw l member
    obtain ⟨line, within, reads⟩ := At.line_of_mem_tokenize member
    refine ⟨line, within, reads, fun place t found => ?_⟩
    obtain ⟨field, at_place, one, whole⟩ := At.field_of_token reads found
    refine ⟨field, at_place, At.encode_keep_front field, whole, ?_⟩
    rcases At.Token.ofField?_eq_some one with ⟨value, -, rfl⟩ | ⟨-, -, rfl⟩
    · exact ⟨nofun, fun x => by rw [At.int?_eq_some_iff]; simp [At.Token.ofValue]⟩
    · exact ⟨fun _ => At.kept_eq_iff.symm, fun x => At.int?_eq_some_iff⟩
  · intro s
    refine ⟨refresh_table s, refresh_mode s, fun on succeeded => ?_⟩
    rcases refreshWifi_cases s with ⟨e, failed, -⟩ | ⟨answer, on', reply, succeeded', l, code, line, came, known, two, -⟩
    · cases failed.symm.trans succeeded
    · obtain rfl : on' = on := Except.ok.inj (succeeded'.symm.trans succeeded)
      refine ⟨answer, reply, code, ModemState.numberIn_of_codeOf? ?_, known, two⟩
      rw [ModemState.codeOf?, line, Option.bind_some, came]

/-- A response with a status whose field goes on with a byte that is no text. -/
def brokenStatus : Bytes := Utf8.encode "STATUS:3" ++ [0xff] ++ At.lineBreak

/-- The status is read as 3, although no field of the response writes that. -/
theorem number_of_brokenField :
    ¬ ∀ (raw : Bytes) (l : At.ResponseLine), l ∈ (At.tokenize raw).lines → ∀ place x, l.int? place = some x →
      ∃ line ∈ At.splitLines raw, ∃ field, (At.fields (At.payload line))[place]? = some field ∧ At.Writes field x := by
  intro every
  let status : At.ResponseLine := { preamble := "STATUS", tokens := [⟨"3", .bare, true⟩], truncated := true }
  obtain ⟨line, within, field, found, writes⟩ := every brokenStatus status (by decide +kernel) 0 3 (by decide)
  have broken : ∀ line ∈ At.splitLines brokenStatus, ∀ field ∈ (At.fields (At.payload line))[0]?, 0xff ∈ field := by
    decide +kernel
  rcases writes.bytes 0xff (broken line within field found) with digit | plus | minus
  · exact absurd digit (by decide)
  · exact absurd plus (by decide)
  · exact absurd minus (by decide)

end Session
end AirMonitor
