import AirMonitor.Modem.Refresh
import AirMonitor.Proofs.Modem.Exchanges
import AirMonitor.Proofs.Modem.Inquiries

/-!
Refreshing the status. A refresh makes its inquiries in turn, each with the state that the
ones before it left, and the first that fails ends it. What a refresh that succeeds reports
comes from the replies alone (`refresh_forgets`), and one that fails has merged just the
answers before the failure (`refresh_failed`).
-/
namespace AirMonitor

namespace Inquiry

/-- What goes out for an inquiry. -/
def wire (i : Inquiry) : Bytes := At.commandLine i.query

theorem fits (i : Inquiry) : (Utf8.encode i.query).length ≤ At.Channel.commandRoom := by
  cases i <;> decide

/-- What comes of the reply to an inquiry. -/
def outcome (i : Inquiry) (reply : Except At.CommError At.Response) (s : ModemState) : Except ModemError ModemState :=
  match reply with
  | .error e => .error (.comm e)
  | .ok response => i.merge response.document s

theorem outcome_cases (i : Inquiry) (reply : Except At.CommError At.Response) :
    (∃ e, ∀ s, i.outcome reply s = .error e) ∨
      ∃ reported, ∀ s, ∃ t, i.outcome reply s = .ok t ∧ i.Decides reported s t := by
  cases reply with
  | error e => exact .inl ⟨_, fun s => rfl⟩
  | ok response =>
    rcases i.merge_cases response.document with malformed | merged
    · exact .inl ⟨_, malformed⟩
    · exact .inr merged

theorem merged_of_outcome {i : Inquiry} {reply : Except At.CommError At.Response} {s t : ModemState}
    (merged : i.outcome reply s = .ok t) : ∃ response, reply = .ok response ∧ i.merge response.document s = .ok t := by
  cases reply with
  | error e => cases merged
  | ok response => exact ⟨response, rfl, merged⟩

end Inquiry

namespace Session
variable {σ σ' α : Type} [Board σ] [Board σ'] {i : Inquiry} {is : List Inquiry} {s t : Session σ} {s' : Session σ'}
  {e : ModemError}

/-! ### Inquiring -/

section
variable {query : String} (fits : (Utf8.encode query).length ≤ At.Channel.commandRoom)
  {f : At.Document → ModemState → Except ModemError (α × ModemState)}
include fits

/-- A query fails with its exchange. -/
theorem merge_unanswered {cause : At.CommError} (failed : s.reply (At.commandLine query) = .error cause) :
    ∃ t, s.merge query f = (.error (.comm cause), t) ∧ Alike t (s.moved (At.commandLine query)) := by
  obtain ⟨t, run, alike⟩ := (query_reply fits s).shown
  exact ⟨t, by rw [merge, run, failed]; rfl, alike⟩

/-- The answer to a query is merged into the state that was there before. -/
theorem merge_answered {answer : At.Response} (answered : s.reply (At.commandLine query) = .ok answer) :
    ∃ t, Alike t (s.moved (At.commandLine query)) ∧ s.merge query f =
      match f answer.document s.state with
      | .error e => (.error e, t)
      | .ok (a, state) => (.ok a, { t with state }) := by
  obtain ⟨t, run, alike⟩ := (query_reply fits s).shown
  have before : t.state = s.state := alike.state
  refine ⟨t, alike, ?_⟩
  rw [merge, run, answered]
  rcases merged : f answer.document s.state with e | ⟨a, state⟩ <;>
    simp only [Except.mapError, Except.map, before, merged]

end

/-- Makes an inquiry and merges the answer. -/
def ask (i : Inquiry) (s : Session σ) : Except ModemError Unit × Session σ :=
  s.merge i.query fun d state => (i.merge d state).map ((), ·)

theorem ask_failed (failed : i.outcome (s.reply i.wire) s.state = .error e) :
    ∃ t, s.ask i = (.error e, t) ∧ Alike t (s.moved i.wire) := by
  cases reply : s.reply i.wire with
  | error cause =>
    rw [reply] at failed
    cases failed
    exact merge_unanswered i.fits reply
  | ok response =>
    rw [reply] at failed
    have failed : i.merge response.document s.state = .error e := failed
    obtain ⟨t, alike, run⟩ := merge_answered i.fits reply
    exact ⟨t, by rw [ask, run, failed]; rfl, alike⟩

theorem ask_merged {state : ModemState} (merged : i.outcome (s.reply i.wire) s.state = .ok state) :
    ∃ t, s.ask i = (.ok (), t) ∧ Alike t { s.moved i.wire with state } := by
  obtain ⟨response, answered, merged⟩ := Inquiry.merged_of_outcome merged
  obtain ⟨t, alike, run⟩ := merge_answered i.fits answered
  exact ⟨{ t with state }, by rw [ask, run, merged]; rfl, alike.board, alike.timing, rfl, alike.phase⟩

/-- Makes inquiries in turn until one fails. -/
def inquire : List Inquiry → Session σ → Except ModemError Unit × Session σ
  | [], s => (.ok (), s)
  | i :: is, s =>
    match s.ask i with
    | (.error e, s) => (.error e, s)
    | (.ok (), s) => inquire is s

theorem refreshAll_eq (s : Session σ) : s.refreshAll =
    match s.inquire Inquiry.all with
    | (.error e, t) => (.error e, t)
    | (.ok (), t) => (.ok t.state.flags, t) := by
  have station : s.refreshStation = s.ask .station := rfl
  have connections : ∀ s : Session σ, s.refreshConnections = s.ask .connections := fun s => rfl
  have mux : ∀ s : Session σ, s.refreshMux = s.ask .mux := fun s => rfl
  simp only [refreshAll, inquire, Inquiry.all, station, connections, mux]
  rcases s.ask .station with ⟨_ | _, t⟩
  · rfl
  simp only
  rcases t.ask .connections with ⟨_ | _, u⟩
  · rfl
  simp only
  rcases u.ask .mux with ⟨_ | _, v⟩ <;> rfl

/-- What the link replies to inquiries that are made in turn. -/
def heard (is : List Inquiry) (s : Session σ) : List (Except At.CommError At.Response) := s.replies (is.map Inquiry.wire)

theorem heard_answered {response : At.Response} (answered : s.reply i.wire = .ok response) {t : Session σ}
    (board : t.board = (s.moved i.wire).board) (timing : t.timing = s.timing) :
    s.heard (i :: is) = .ok response :: t.heard is := by
  have after : (s.moved i.wire).replies (is.map Inquiry.wire) = t.heard is := by
    rw [heard, replies, replies, board, timing]
    rfl
  rw [heard, List.map_cons, (replies_answered answered _).1, after]

theorem head?_heard (i : Inquiry) (is : List Inquiry) (s : Session σ) :
    (s.heard (i :: is)).head? = some (s.reply i.wire) := by
  rw [heard, List.map_cons]
  cases came : s.reply i.wire with
  | error e => rw [(replies_failed came _).1, List.head?_cons]
  | ok response => rw [(replies_answered came _).1, List.head?_cons]

/-! ### A refresh that succeeds -/

/-- The same replies bring the inquiries to the same end, and decide the same. -/
theorem inquire_agrees (same : s.heard is = s'.heard is) :
    (∃ e t t', s.inquire is = (.error e, t) ∧ s'.inquire is = (.error e, t')) ∨
      ∃ t t', s.inquire is = (.ok (), t) ∧ s'.inquire is = (.ok (), t') ∧
        (∀ i, i ∈ is ∨ i.Same s.state s'.state → i.Same t.state t'.state) ∧ s.state.Settled t.state := by
  induction is generalizing s s' with
  | nil => exact .inr ⟨s, s', rfl, rfl, fun i told => told.resolve_left List.not_mem_nil, rfl, rfl, rfl, rfl⟩
  | cons i is ih =>
    have reply : s'.reply i.wire = s.reply i.wire := by
      have heads := congrArg List.head? same
      rw [head?_heard, head?_heard] at heads
      exact (Option.some.inj heads).symm
    rcases i.outcome_cases (s.reply i.wire) with ⟨e, fails⟩ | ⟨reported, merges⟩
    · obtain ⟨t, run, -⟩ := ask_failed (fails s.state)
      obtain ⟨t', run', -⟩ := ask_failed (s := s') (reply ▸ fails s'.state)
      exact .inl ⟨e, t, t', by rw [inquire, run], by rw [inquire, run']⟩
    obtain ⟨state, merged, decides⟩ := merges s.state
    obtain ⟨state', merged', decides'⟩ := merges s'.state
    obtain ⟨t, run, alike⟩ := ask_merged merged
    obtain ⟨t', run', alike'⟩ := ask_merged (s := s') (reply ▸ merged')
    obtain ⟨response, answered, -⟩ := Inquiry.merged_of_outcome merged
    have later : t.heard is = t'.heard is := by
      rw [heard_answered answered alike.board alike.timing,
        heard_answered (reply.trans answered) alike'.board alike'.timing] at same
      exact (List.cons.inj same).2
    rw [inquire, run, inquire, run']
    rcases ih later with failed | ⟨u, u', run, run', agree, settled⟩
    · exact .inl failed
    have state : t.state = state := alike.state
    have state' : t'.state = state' := alike'.state
    rw [state, state'] at agree
    rw [state] at settled
    refine .inr ⟨u, u', run, run', ?_, decides.settled.trans settled⟩
    intro j told
    apply agree
    by_cases own : j = i
    · subst own
      exact .inr (decides.decided.symm.trans decides'.decided)
    · rcases told with member | same
      · exact .inl ((List.mem_cons.mp member).resolve_left own)
      · exact .inr (((decides.others j own).symm.trans same).trans (decides'.others j own))

theorem refresh_ok (run : s.inquire Inquiry.all = (.ok (), t)) : s.refresh = (.ok t.state.flags, t) := by
  rw [refresh, refreshAll_eq, run]

theorem refresh_error (run : s.inquire Inquiry.all = (.error e, t)) :
    s.refresh = (.error e, t.note .warn ["status refresh: ", e.message]) := by
  rw [refresh, refreshAll_eq, run]

theorem refresh_state (s : Session σ) : s.refresh.2.state = (s.inquire Inquiry.all).2.state := by
  cases run : s.inquire Inquiry.all with
  | mk result t =>
    cases result with
    | error e =>
      rw [refresh_error run]
      rfl
    | ok => rw [refresh_ok run]

/-- A refresh tells what the replies to it say, whatever was known before, and the same
    replies once more change nothing. -/
theorem refresh_forgets {τ : Type} [Board τ] (same : s.heard Inquiry.all = s'.heard Inquiry.all) :
    ((∃ flags, s.refresh.1 = .ok flags) ↔ ∃ flags, s'.refresh.1 = .ok flags) ∧
    ∀ flags, s.refresh.1 = .ok flags →
      let t := s.refresh.2.state
      let t' := s'.refresh.2.state
      (flags = t.flags ∧ (∀ f ∈ ModemFlags.all, t.flags.contains f = t'.flags.contains f) ∧
        t.address = t'.address ∧ t.gateway = t'.gateway ∧ t.netmask = t'.netmask ∧ t.clients = t'.clients) ∧
      (t.ssid = s.state.ssid ∧ t.serverPort = s.state.serverPort ∧ t.power = s.state.power) ∧
      ∀ u : Session τ, u.state = t → u.heard Inquiry.all = s.heard Inquiry.all →
        u.refresh.1 = .ok flags ∧ u.refresh.2.state = t := by
  rcases inquire_agrees same with ⟨e, t, t', run, run'⟩ | ⟨t, t', run, run', agree, settled⟩
  · rw [refresh_error run, refresh_error run']
    exact ⟨⟨nofun, nofun⟩, nofun⟩
  rw [refresh_ok run, refresh_ok run']
  refine ⟨⟨fun _ => ⟨_, rfl⟩, fun _ => ⟨_, rfl⟩⟩, ?_⟩
  intro flags returned
  obtain rfl : t.state.flags = flags := Except.ok.inj returned
  have told : ∀ i : Inquiry, i.Same t'.state t.state := fun i => (agree i (.inl i.mem_all)).symm
  refine ⟨⟨rfl, ?_, (told .station).address rfl, (told .station).gateway rfl, (told .station).netmask rfl,
    (told .connections).clients rfl⟩, ⟨settled.ssid, settled.serverPort, settled.power⟩, ?_⟩
  · intro f member
    obtain ⟨i, -, own⟩ := Inquiry.exists_flag member
    exact (told i).flags f own
  · intro u known again
    rcases inquire_agrees again with ⟨e, v, w, -, failed⟩ | ⟨v, w, repeated, run', agree, settled⟩
    · simp [run] at failed
    obtain rfl : t = w := by simpa [run] using run'
    have unchanged : v.state = t.state := by
      rw [← known]
      refine Inquiry.eq_of_same (fun i => ?_) settled
      rw [known]
      exact (agree i (.inl i.mem_all)).symm
    rw [refresh_ok repeated]
    exact ⟨congrArg (fun state => Except.ok state.flags) unchanged, unchanged⟩

/-- A session that knew other peers and one that knew none learn the same. -/
theorem refresh_forgets_stalePeers :
    let reply (text : String) : Reply := { rx := Utf8.encode text }
    let script := [
      reply "+CIPSTA:ip:\"10.0.0.2\"\r\n+CIPSTA:gateway:\"10.0.0.1\"\r\nOK\r\n",
      reply "STATUS:3\r\n+CIPSTATUS:1,\"TCP\",\"10.0.0.9\",4711,333,1\r\nOK\r\n",
      reply "+CIPMUX:1\r\nOK\r\n"]
    let stale : ModemState :=
      { flags := .asClient, address := "10.0.0.7", ssid := "home", clients := [⟨4, .udp, "10.0.0.8", 1, 2, false⟩] }
    let s : Session Bench := { channel := { board := { modem := { script := script ++ script } } } }
    let s' : Session Bench := { channel := { board := { now := ⟨77⟩, modem := { script } } }, state := stale }
    s.heard Inquiry.all = s'.heard Inquiry.all ∧ s.refresh.1 = .ok ⟨0x0f⟩ ∧
      s'.refresh.2.state.clients = [⟨1, .tcp, "10.0.0.9", 4711, 333, true⟩] ∧
      s.refresh.2.refresh.2.state = s.refresh.2.state := by
  intro reply script stale s s'
  have same : s.heard Inquiry.all = s'.heard Inquiry.all := by decide +kernel
  have flags : s.refresh.1 = .ok ⟨0x0f⟩ := by decide +kernel
  obtain ⟨-, told⟩ := refresh_forgets (τ := Bench) same
  obtain ⟨⟨-, -, -, -, -, clients⟩, -, again⟩ := told _ flags
  refine ⟨same, flags, clients.symm.trans (by decide +kernel), (again s.refresh.2 rfl (by decide +kernel)).2⟩

/-! ### A refresh that fails -/

/-- Merges the answers to inquiries in turn. -/
def mergeAll : List (Inquiry × At.Response) → ModemState → Except ModemError ModemState
  | [], s => .ok s
  | (i, response) :: more, s =>
    match i.merge response.document s with
    | .error e => .error e
    | .ok s => mergeAll more s

/-- Answers leave what none of their inquiries decides. -/
theorem mergeAll_keeps {answered : List (Inquiry × At.Response)} {s t : ModemState} (merged : mergeAll answered s = .ok t) :
    (∀ i, i ∉ answered.map Prod.fst → i.Same s t) ∧ s.Settled t := by
  induction answered generalizing s with
  | nil =>
    obtain rfl : s = t := Except.ok.inj merged
    exact ⟨fun i _ => .refl i s, rfl, rfl, rfl, rfl⟩
  | cons first more ih =>
    obtain ⟨i, response⟩ := first
    rcases i.merge_cases response.document with malformed | ⟨reported, merges⟩
    · simp [mergeAll, malformed] at merged
    · obtain ⟨u, one, decides⟩ := merges s
      rw [mergeAll, one] at merged
      obtain ⟨kept, settled⟩ := ih merged
      refine ⟨fun j foreign => ?_, decides.settled.trans settled⟩
      rw [List.map_cons, List.mem_cons, not_or] at foreign
      exact (decides.others j foreign.1).trans (kept j foreign.2)

/-- What an inquiry decides comes from an answer to it, or is as it was. -/
theorem mergeAll_told {answered : List (Inquiry × At.Response)} {s t : ModemState} (merged : mergeAll answered s = .ok t)
    (i : Inquiry) : i.Same s t ∨
      ∃ response u v, (i, response) ∈ answered ∧ i.merge response.document u = .ok v ∧ i.Same v t := by
  induction answered generalizing s with
  | nil =>
    obtain rfl : s = t := Except.ok.inj merged
    exact .inl (.refl i s)
  | cons first more ih =>
    obtain ⟨j, response⟩ := first
    rcases j.merge_cases response.document with malformed | ⟨reported, merges⟩
    · simp [mergeAll, malformed] at merged
    · obtain ⟨u, one, decides⟩ := merges s
      rw [mergeAll, one] at merged
      rcases ih merged with same | ⟨later, v, w, member, told, same⟩
      · by_cases own : i = j
        · subst own
          exact .inr ⟨response, s, u, List.mem_cons_self, one, same⟩
        · exact .inl ((decides.others i own).trans same)
      · exact .inr ⟨later, v, w, List.mem_cons_of_mem _ member, told, same⟩

/-- Inquiries stop at the first that fails, with the answers to those before it merged. -/
theorem inquire_failed (failed : s.inquire is = (.error e, t)) :
    ∃ done i left answers reply, is = done ++ i :: left ∧ answers.length = done.length ∧
      answers.map Except.ok ++ [reply] <+: s.heard is ∧ mergeAll (done.zip answers) s.state = .ok t.state ∧
      i.outcome reply t.state = .error e ∧
      t.board = At.conversed s.timing.commandTimeout ((done ++ [i]).map Inquiry.wire) s.board := by
  induction is generalizing s with
  | nil => cases failed
  | cons i is ih =>
    cases came : i.outcome (s.reply i.wire) s.state with
    | error cause =>
      obtain ⟨u, run, alike⟩ := ask_failed came
      rw [inquire, run] at failed
      obtain ⟨rfl, rfl⟩ : cause = e ∧ u = t := by simpa using failed
      have state : u.state = s.state := alike.state
      refine ⟨[], i, is, [], s.reply i.wire, rfl, rfl, ?_, congrArg Except.ok state.symm, by rw [state, came], alike.board⟩
      obtain ⟨rest, heard⟩ := List.head?_eq_some_iff.mp (head?_heard i is s)
      exact ⟨rest, heard.symm⟩
    | ok state =>
      obtain ⟨u, run, alike⟩ := ask_merged came
      rw [inquire, run] at failed
      obtain ⟨done, j, left, answers, reply, rfl, sizes, heard, merged, cause, board⟩ := ih failed
      obtain ⟨response, answered, one⟩ := Inquiry.merged_of_outcome came
      have first : u.state = state := alike.state
      refine ⟨i :: done, j, left, response :: answers, reply, rfl, by simp [sizes], ?_, ?_, cause, ?_⟩
      · rw [heard_answered answered alike.board alike.timing]
        exact List.prefix_cons_inj _ |>.mpr heard
      · rw [first] at merged
        simp only [List.zip_cons_cons, mergeAll, one, merged]
      · have timing : u.timing = s.timing := alike.timing
        have moved : u.board = (s.moved i.wire).board := alike.board
        rw [board, timing, moved]
        rfl

/-- Inquiries that all succeed have the answers to them merged. -/
theorem inquire_merged (run : s.inquire is = (.ok (), t)) :
    ∃ answers, s.heard is = answers.map Except.ok ∧ answers.length = is.length ∧
      mergeAll (is.zip answers) s.state = .ok t.state := by
  induction is generalizing s with
  | nil =>
    obtain rfl : s = t := by simpa [inquire] using run
    exact ⟨[], rfl, rfl, rfl⟩
  | cons i is ih =>
    cases came : i.outcome (s.reply i.wire) s.state with
    | error cause =>
      obtain ⟨u, asked, -⟩ := ask_failed came
      simp [inquire, asked] at run
    | ok state =>
      obtain ⟨u, asked, alike⟩ := ask_merged came
      rw [inquire, asked] at run
      obtain ⟨answers, heard, sizes, merged⟩ := ih run
      obtain ⟨response, answered, one⟩ := Inquiry.merged_of_outcome came
      have first : u.state = state := alike.state
      refine ⟨response :: answers, ?_, by simp [sizes], ?_⟩
      · rw [heard_answered answered alike.board alike.timing, heard, List.map_cons]
      · rw [first] at merged
        simp only [List.zip_cons_cons, mergeAll, one, merged]

/-- Inquiries have answers merged in turn, up to the last inquiry or to one whose reply cannot be merged. -/
theorem inquire_ends (is : List Inquiry) (s : Session σ) : ∃ answers,
    answers.map Except.ok <+: s.heard is ∧ mergeAll (is.zip answers) s.state = .ok (s.inquire is).2.state ∧
      (answers.length = is.length ∨ ∃ i reply e, is[answers.length]? = some i ∧
        (s.heard is)[answers.length]? = some reply ∧ i.outcome reply (s.inquire is).2.state = .error e) := by
  cases run : s.inquire is with
  | mk result t =>
    cases result with
    | ok =>
      obtain ⟨answers, heard, sizes, merged⟩ := inquire_merged run
      exact ⟨answers, heard ▸ List.prefix_rfl, merged, .inl sizes⟩
    | error e =>
      obtain ⟨done, i, left, answers, reply, rfl, sizes, heard, merged, cause, -⟩ := inquire_failed run
      refine ⟨answers, (List.prefix_append _ _).trans heard, ?_, .inr ⟨i, reply, e, ?_, ?_, cause⟩⟩
      · have zipped : (done ++ i :: left).zip (answers ++ []) = done.zip answers ++ (i :: left).zip [] :=
          List.zip_append sizes.symm
        rw [List.zip_nil_right, List.append_nil, List.append_nil] at zipped
        rw [zipped, merged]
      · rw [sizes, List.getElem?_append_right (Nat.le_refl _), Nat.sub_self, List.getElem?_cons_zero]
      · obtain ⟨rest, whole⟩ := heard
        rw [← whole, List.append_assoc, List.getElem?_append_right (by simp)]
        simp

/-- What an inquiry of a refresh decides comes from the answer to it, or is as it was. -/
theorem refresh_told (i : Inquiry) (s : Session σ) : i.Same s.state s.refresh.2.state ∨
    ∃ (place : Nat) (response : At.Response) (u v : ModemState), Inquiry.all[place]? = some i ∧
      (s.heard Inquiry.all)[place]? = some (.ok response) ∧ i.merge response.document u = .ok v ∧
      i.Same v s.refresh.2.state := by
  obtain ⟨answers, heard, merged, -⟩ := inquire_ends Inquiry.all s
  rw [← refresh_state] at merged
  rcases mergeAll_told merged i with same | ⟨response, u, v, member, one, same⟩
  · exact .inl same
  · obtain ⟨place, found⟩ := List.mem_iff_getElem?.mp member
    obtain ⟨own, answer⟩ := List.getElem?_zip_eq_some.mp found
    obtain ⟨early, -⟩ := List.getElem?_eq_some_iff.mp answer
    obtain ⟨rest, heard⟩ := heard
    refine .inr ⟨place, response, u, v, own, ?_, one, same⟩
    rw [← heard, List.getElem?_append_left (by simpa using early), List.getElem?_map, answer, Option.map_some]

/-- A refresh made the inquiries `done`, merged the answers to them, and failed at `i`. -/
structure FailedAt (done : List Inquiry) (i : Inquiry) (left : List Inquiry) (s t : Session (Recorded σ))
    (e : ModemError) : Prop where
  order : Inquiry.all = done ++ i :: left
  sent : t.board.acts = s.board.acts ++ (done ++ [i]).map fun i => .transmit .modem i.wire
  merged : ∃ answers reply, answers.length = done.length ∧
    answers.map Except.ok ++ [reply] <+: s.heard Inquiry.all ∧
    mergeAll (done.zip answers) s.state = .ok t.state ∧ i.outcome reply t.state = .error e
  kept : ∀ j ∈ i :: left, j.Same s.state t.state
  settled : s.state.Settled t.state

/-- A refresh that fails has transmitted the inquiries up to the one that failed, has
    merged the answers before that, and has left everything else. -/
theorem refresh_failed {s : Session (Recorded σ)} (failed : s.refresh.1 = .error e) :
    ∃ done i left, FailedAt done i left s s.refresh.2 e := by
  cases run : s.inquire Inquiry.all with
  | mk result u =>
    cases result with
    | ok =>
      rw [refresh_ok run] at failed
      cases failed
    | error cause =>
      rw [refresh_error run] at failed ⊢
      obtain rfl : cause = e := Except.error.inj failed
      obtain ⟨done, i, left, answers, reply, order, sizes, heard, merged, cause, board⟩ := inquire_failed run
      obtain ⟨kept, settled⟩ := mergeAll_keeps merged
      rw [List.map_fst_zip (by omega)] at kept
      refine ⟨done, i, left, order, ?_, ⟨answers, reply, sizes, heard, merged, cause⟩, ?_, settled⟩
      · show u.board.acts = _
        rw [board, Recorded.acts_conversed, List.map_map]
        rfl
      · intro j member
        have distinct : (done ++ i :: left).Nodup := by
          rw [← order]
          decide
        exact kept j fun early => (List.nodup_append.mp distinct).2.2 j early j member rfl

/-- The connection table is malformed, and the peers in it do not count. -/
theorem refresh_failed_badCode :
    let reply (text : String) : Reply := { rx := Utf8.encode text }
    let bench : Bench := { modem := { script := [
      reply "+CIPSTA:ip:\"10.0.0.2\"\r\n+CIPSTA:gateway:\"10.0.0.1\"\r\nOK\r\n",
      reply "STATUS:9\r\n+CIPSTATUS:1,\"TCP\",\"10.0.0.9\",4711,333,1\r\nOK\r\n"] } }
    let s : Session (Recorded Bench) :=
      { channel := { board := { board := bench } }, state := { flags := .asClient, ssid := "home" } }
    (∃ done i left, FailedAt done i left s s.refresh.2 (.malformed "AT+CIPSTATUS")) ∧
      s.refresh.2.state = { s.state with
        flags := .union .wifiConnected .asClient, address := "10.0.0.2", gateway := "10.0.0.1" } := by
  intro reply bench s
  have failed : s.refresh.1 = .error (.malformed "AT+CIPSTATUS") := by decide +kernel
  exact ⟨refresh_failed failed, by decide +kernel⟩

end Session
end AirMonitor
