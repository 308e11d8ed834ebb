import AirMonitor.Output.Rehearsal
import AirMonitor.Board.Bench
import AirMonitor.Proofs.Output.Steps

/-!
Every message goes to every sink once, as it was accepted. Outlets that remember their
calls (`Tapped`) are compared with a ledger of what was accepted and of the tasks that
were run (`Ledger`). A task that is run belongs to the message that was last put into
its buffer; as long as a sink holds its permit on a buffer, that message is still there
and has not been passed to the sink (`Faithful`), and once the permit is back it has.
-/
namespace AirMonitor

/-- Outlets that remember what was sent. -/
structure Tapped (τ : Type) where
  outlets : τ
  /-- The sends, in order. -/
  calls : List (SinkId × Bytes) := []

instance {τ : Type} [Outlets τ] : Outlets (Tapped τ) where
  send sink payload t :=
    let (result, outlets) := Outlets.send sink payload t.outlets
    (result, { outlets, calls := t.calls ++ [(sink, payload)] })
  sleepUntil deadline t := { t with outlets := Outlets.sleepUntil deadline t.outlets }

namespace Output

/-- A message that was passed to a sink, and the task that did it. -/
structure Delivery where
  number : Nat
  sink : SinkId
  buffer : UInt16
  seq : UInt32
deriving DecidableEq

/-- What was accepted, and what was passed on. -/
structure Ledger where
  /-- The accepted messages, in order. -/
  messages : List (Bytes × Emitted) := []
  /-- The number of the message that was last put into a buffer. -/
  owner : UInt16 → Nat := fun _ => 0
  deliveries : List Delivery := []

namespace Ledger

def enter (event : Event) (l : Ledger) : Ledger :=
  match event with
  | .accepted message e => { l with
      messages := l.messages ++ [(message, e)], owner := Function.update l.owner e.buffer l.messages.length }
  | .ran e =>
    match e.task.action with
    | .send sink buffer => { l with deliveries := l.deliveries ++ [⟨l.owner buffer, sink, buffer, e.task.seq⟩] }
    | .sleepUntil _ => l
  | .dozed _ => l
  | .settled _ => l

def ofHistory (events : List Event) : Ledger := events.foldl (fun l event => l.enter event) {}

/-- The messages and the sinks that they were passed to. -/
def passed (l : Ledger) : List (Nat × SinkId) := l.deliveries.map fun d => (d.number, d.sink)

/-- A send is that of a delivery: it carries as much as was kept of the message that the task was queued for. -/
def Carries (l : Ledger) (L : Nat) (d : Delivery) (call : SinkId × Bytes) : Prop :=
  ∃ message e, l.messages[d.number]? = some (message, e) ∧ d.buffer = e.buffer ∧ d.seq = e.seq ∧
    call = (d.sink, message.take L)

theorem Carries.mono {l k : Ledger} {L : Nat} {d : Delivery} {call : SinkId × Bytes} (carries : l.Carries L d call)
    (grows : l.messages <+: k.messages) : k.Carries L d call := by
  obtain ⟨message, e, found, same⟩ := carries
  obtain ⟨more, whole⟩ := grows
  refine ⟨message, e, ?_, same⟩
  obtain ⟨inside, -⟩ := List.getElem?_eq_some_iff.mp found
  rw [← whole, List.getElem?_append_left inside, found]

section accepted
variable (l : Ledger) (message : Bytes) (e : Emitted)

theorem message_old {i : Nat} (inside : i < l.messages.length) :
    (l.enter (.accepted message e)).messages[i]? = l.messages[i]? :=
  List.getElem?_append_left inside

theorem message_new : (l.enter (.accepted message e)).messages[l.messages.length]? = some (message, e) := by
  simp [enter]

theorem owner_new : (l.enter (.accepted message e)).owner e.buffer = l.messages.length := Function.update_self ..

theorem owner_old {k : UInt16} (other : k ≠ e.buffer) : (l.enter (.accepted message e)).owner k = l.owner k :=
  Function.update_of_ne other ..

variable {l message e} in
theorem old_or_new {i : Nat} {other : Bytes} {e' : Emitted}
    (found : (l.enter (.accepted message e)).messages[i]? = some (other, e')) :
    l.messages[i]? = some (other, e') ∨ i = l.messages.length ∧ e' = e := by
  rcases Nat.lt_trichotomy i l.messages.length with old | rfl | beyond
  · exact .inl ((l.message_old message e old).symm.trans found)
  · rw [message_new] at found
    exact .inr ⟨rfl, (Prod.mk.inj (Option.some.inj found)).2.symm⟩
  · have few := (List.getElem?_eq_some_iff.mp found).1
    rw [enter, List.length_append, List.length_singleton] at few
    omega

variable {l} in
/-- The message of another buffer stays. -/
theorem found_old {k : UInt16} {other : Bytes} {e' : Emitted} (found : l.messages[l.owner k]? = some (other, e'))
    (differ : k ≠ e.buffer) :
    (l.enter (.accepted message e)).messages[(l.enter (.accepted message e)).owner k]? = some (other, e') := by
  rw [owner_old l message e differ, message_old l message e (List.getElem?_eq_some_iff.mp found).1, found]

end accepted

end Ledger

variable {B L Q : Nat} {τ : Type} {o p : Output B L Q (Tapped τ)} {l : Ledger}

/-- The sends are the deliveries; what a sink may still read is a message that it was not
    passed, and what it may not read any more it was passed. -/
structure Faithful (o : Output B L Q (Tapped τ)) (l : Ledger) : Prop where
  calls : List.Forall₂ (l.Carries L) l.deliveries o.outlets.calls
  once : l.passed.Nodup
  truncated : ∀ message e, (message, e) ∈ l.messages → e.truncated = decide (L < message.length)
  /-- A message that a sink may read. -/
  held : ∀ sink buffer, o.mux.pool.holds sink buffer = true →
    ∃ message e, l.messages[l.owner buffer]? = some (message, e) ∧ e.buffer = buffer ∧
      o.mux.pool.content buffer = message.take L ∧ (l.owner buffer, sink) ∉ l.passed
  /-- A message that a task waits to send. -/
  numbered : ∀ t ∈ o.mux.tasks, ∀ sink buffer, t.action = .send sink buffer →
    ∃ message e, l.messages[l.owner buffer]? = some (message, e) ∧ t.seq = e.seq
  settled : ∀ i message e, l.messages[i]? = some (message, e) → ∀ sink,
    (i, sink) ∈ l.passed ∨ l.owner e.buffer = i ∧ o.mux.pool.holds sink e.buffer = true
  latest : ∀ i message e, l.messages[i]? = some (message, e) → i ≤ l.owner e.buffer

theorem faithful_start (sizes : Mux.Sizes B Q) (settings : MuxSettings) (outlets : τ) :
    Faithful (start settings { outlets } : Output B L Q (Tapped τ)) {} where
  calls := .nil
  once := .nil
  truncated := by simp
  held := by
    intro sink buffer held
    rw [show (start settings { outlets } : Output B L Q (Tapped τ)).mux.pool = {} from rfl,
      BufferPool.holds_empty] at held
    simp at held
  numbered := by
    intro t member
    have none_waits : (start settings { outlets } : Output B L Q (Tapped τ)).mux.tasks = [] := Mux.tasks_ofSettings sizes settings
    rw [none_waits] at member
    simp at member
  settled := by simp
  latest := by simp

namespace Faithful

theorem known (faithful : Faithful o l) {i : Nat} {sink : SinkId} (member : (i, sink) ∈ l.passed) :
    i < l.messages.length := by
  obtain ⟨d, delivered, same⟩ := List.mem_map.mp member
  obtain ⟨rfl, rfl⟩ := Prod.mk.inj same
  obtain ⟨k, inside, rfl⟩ := List.mem_iff_getElem.mp delivered
  obtain ⟨lengths, each⟩ := List.forall₂_iff_get.mp faithful.calls
  obtain ⟨message, e, found, -⟩ := each k inside (lengths ▸ inside)
  exact (List.getElem?_eq_some_iff.mp found).1

/-- Without a send or a message the ledger stays right. -/
theorem quiet (faithful : Faithful o l) (pool : p.mux.pool = o.mux.pool) (calls : p.outlets.calls = o.outlets.calls)
    (tasks : ∀ t ∈ p.mux.tasks, ∀ sink buffer, t.action = .send sink buffer →
      ∃ s ∈ o.mux.tasks, s.action = t.action ∧ s.seq = t.seq) : Faithful p l := by
  refine ⟨?_, faithful.once, faithful.truncated, ?_, ?_, ?_, faithful.latest⟩
  · rw [calls]
    exact faithful.calls
  · rw [pool]
    exact faithful.held
  · intro t member sink buffer action
    obtain ⟨s, old, same, seq⟩ := tasks t member sink buffer action
    rw [← seq]
    exact faithful.numbered s old sink buffer (same.trans action)
  · rw [pool]
    exact faithful.settled

/-- A message takes a buffer that nobody reads any more. -/
theorem accept (faithful : Faithful o l) (balanced : o.mux.Balanced [] []) {message : Bytes} {e : Emitted}
    (accepted : Accepted o message e p) : Faithful p (l.enter (.accepted message e)) := by
  have grows : l.messages <+: (l.enter (.accepted message e)).messages := List.prefix_append _ _
  have new_owner := l.owner_new message e
  have new_message := l.message_new message e
  -- Whatever a sink may read is in another buffer, so its message and owner stay.
  have unread : ∀ sink k, o.mux.pool.holds sink k = true → k ≠ e.buffer := by
    rintro sink k held rfl
    simp [accepted.unheld] at held
  refine ⟨?_, faithful.once, ?_, ?_, ?_, ?_, ?_⟩
  · rw [accepted.outlets]
    exact faithful.calls.imp (fun d call carries => carries.mono grows)
  · intro other e' member
    rcases List.mem_append.mp member with old | new
    · exact faithful.truncated other e' old
    · obtain ⟨rfl, rfl⟩ := Prod.mk.inj (List.mem_singleton.mp new)
      exact accepted.truncated
  · intro sink k held
    rw [accepted.holds] at held
    by_cases same : k = e.buffer
    · subst same
      refine ⟨message, e, by rw [new_owner, new_message], rfl, by rw [accepted.content, if_pos rfl], ?_⟩
      rw [new_owner]
      intro member
      exact Nat.lt_irrefl _ (faithful.known member)
    · rw [if_neg same] at held
      obtain ⟨other, e', found, at_buffer, content, unpassed⟩ := faithful.held sink k held
      refine ⟨other, e', Ledger.found_old message e found same, at_buffer,
        by rw [accepted.content, if_neg same, content], ?_⟩
      rw [l.owner_old message e same]
      exact unpassed
  · intro t member sink k action
    rcases accepted.origin member action with waits | ⟨rfl, seq⟩
    · have due : o.mux.due t.duty = true := (balanced.mem_iff _).mp (by simpa using ⟨t, waits, rfl⟩)
      rw [Task.duty, action] at due
      obtain ⟨other, e', found, seq⟩ := faithful.numbered t waits sink k action
      exact ⟨other, e', Ledger.found_old message e found (unread sink k due), seq⟩
    · exact ⟨message, e, by rw [new_owner, new_message], seq⟩
  · intro i other e' found sink
    rcases Ledger.old_or_new found with old | ⟨rfl, rfl⟩
    · rcases faithful.settled i other e' old sink with passed | ⟨owned, held⟩
      · exact .inl passed
      · right
        have same := unread sink e'.buffer held
        rw [l.owner_old message e same, accepted.holds, if_neg same]
        exact ⟨owned, held⟩
    · right
      rw [accepted.holds, if_pos rfl]
      exact ⟨new_owner, rfl⟩
  · intro i other e' found
    rcases Ledger.old_or_new found with old | ⟨rfl, rfl⟩
    · by_cases same : e'.buffer = e.buffer
      · rw [same, new_owner]
        exact Nat.le_of_lt (List.getElem?_eq_some_iff.mp old).1
      · rw [l.owner_old message e same]
        exact faithful.latest i other e' old
    · rw [new_owner]

/-- A send passes on the message that is in the buffer, and the sink may read it no more. -/
theorem send [Outlets τ] (faithful : Faithful o l) (balanced : o.mux.Balanced [] []) {e : Executed} {sink : SinkId}
    {buffer : UInt16} (action : e.task.action = .send sink buffer) (ran : Ran o e p) :
    Faithful p (l.enter (.ran e)) := by
  have held : o.mux.pool.holds sink buffer = true := by
    have due := ran.due
    rwa [Task.duty, action] at due
  obtain ⟨message, e', found, at_buffer, content, unpassed⟩ := faithful.held sink buffer held
  obtain ⟨s, waits, same_action, same_seq⟩ := ran.origin (List.mem_cons_self (a := e.task) (l := p.mux.tasks))
  obtain ⟨other, e'', found', seq⟩ := faithful.numbered s waits sink buffer (same_action.trans action)
  obtain ⟨rfl, rfl⟩ := Prod.mk.inj (Option.some.inj (found.symm.trans found'))
  obtain ⟨pool, -, outlets⟩ := ran.sent sink buffer action
  obtain ⟨-, holds, contents⟩ := balanced.pool.after_release buffer sink
  have entered : l.enter (.ran e) =
      { l with deliveries := l.deliveries ++ [⟨l.owner buffer, sink, buffer, e.task.seq⟩] } := by
    simp only [Ledger.enter, action]
  have passed : (l.enter (.ran e)).passed = l.passed ++ [(l.owner buffer, sink)] := by
    simp [entered, Ledger.passed]
  rw [entered] at passed ⊢
  refine ⟨?_, ?_, faithful.truncated, ?_, ?_, ?_, faithful.latest⟩
  · have calls : p.outlets.calls = o.outlets.calls ++ [(sink, message.take L)] := by
      rw [outlets, content]
      rfl
    rw [calls]
    have carries : l.Carries L ⟨l.owner buffer, sink, buffer, e.task.seq⟩ (sink, message.take L) :=
      ⟨message, e', found, at_buffer.symm, same_seq.symm.trans seq, rfl⟩
    exact List.rel_append faithful.calls (.cons carries .nil)
  · rw [passed, List.nodup_append]
    refine ⟨faithful.once, by simp, ?_⟩
    rintro pair old _ new rfl
    rw [List.mem_singleton.mp new] at old
    exact unpassed old
  · intro other k still
    rw [pool, holds, Bool.and_eq_true, decide_eq_true_iff] at still
    obtain ⟨message', e'', found'', at_k, content', unpassed'⟩ := faithful.held other k still.1
    refine ⟨message', e'', found'', at_k, by rw [pool, contents, content'], ?_⟩
    rw [passed, List.mem_append, not_or]
    refine ⟨unpassed', ?_⟩
    intro now
    obtain ⟨same_owner, same_sink⟩ := Prod.mk.inj (List.mem_singleton.mp now)
    -- One message is in one buffer, so this would be the permit that was given back.
    rw [same_owner, found] at found''
    obtain ⟨rfl, rfl⟩ := Prod.mk.inj (Option.some.inj found'')
    exact still.2 (by rw [same_sink, ← at_k, at_buffer])
  · intro t member other k waiting
    obtain ⟨s', waits', action', seq'⟩ := ran.origin (List.mem_cons_of_mem e.task member)
    obtain ⟨message', e'', found'', seq''⟩ := faithful.numbered s' waits' other k (action'.trans waiting)
    exact ⟨message', e'', found'', seq'.symm.trans seq''⟩
  · intro i message' e'' found'' other
    rw [passed, List.mem_append]
    rcases faithful.settled i message' e'' found'' other with before | ⟨owned, was_held⟩
    · exact .inl (.inl before)
    · by_cases same : (other, e''.buffer) = (sink, buffer)
      · obtain ⟨rfl, rfl⟩ := Prod.mk.inj same
        exact .inl (.inr (by simp [owned]))
      · refine .inr ⟨owned, ?_⟩
        rw [pool, holds, was_held, Bool.true_and, decide_eq_true_iff]
        exact same

/-- Without tasks every message was passed to every sink. -/
theorem all_passed (faithful : Faithful o l) (balanced : o.mux.Balanced [] []) (no_tasks : o.mux.tasks = []) :
    ∀ i < l.messages.length, ∀ sink, l.passed.count (i, sink) = 1 := by
  intro i inside sink
  have found : l.messages[i]? = some (l.messages[i].1, l.messages[i].2) := List.getElem?_eq_getElem inside
  refine List.count_eq_one_of_mem faithful.once ?_
  rcases faithful.settled i _ _ found sink with passed | ⟨-, held⟩
  · exact passed
  · have waits := (balanced.mem_iff (.send sink l.messages[i].2.buffer)).mpr held
    rw [no_tasks] at waits
    simp at waits

theorem step [Outlets τ] (faithful : Faithful o l) {event : Event} (step : Step o event p) :
    Faithful p (l.enter event) := by
  cases event with
  | accepted message e => exact faithful.accept step.before step.effect
  | ran e =>
    have ran : Ran o e p := step.effect
    cases action : e.task.action with
    | send sink buffer => exact faithful.send step.before action ran
    | sleepUntil deadline =>
      obtain ⟨pool, -, outlets⟩ := ran.slept deadline action
      have entered : l.enter (.ran e) = l := by simp only [Ledger.enter, action]
      rw [entered]
      refine faithful.quiet pool (by rw [outlets]; rfl) ?_
      intro t member _ _ _
      exact ran.origin (List.mem_cons_of_mem e.task member)
  | dozed deadline =>
    have dozed : Dozed o deadline p := step.effect
    refine faithful.quiet dozed.pool (by rw [dozed.outlets]) ?_
    intro t member sink buffer action
    obtain ⟨seq, handed⟩ := dozed.handed
    rw [Mux.tasks, handed, dozed.pending] at member
    simp only [List.mem_append, List.mem_singleton] at member
    rcases member with (before | rfl) | pending
    · exact ⟨t, List.mem_append_left _ before, rfl, rfl⟩
    · simp at action
    · exact ⟨t, List.mem_append_right _ pending, rfl, rfl⟩
  | settled s =>
    have settled : Settled o s p := step.effect
    refine faithful.quiet settled.pool (by rw [settled.outlets]) ?_
    intro t member _ _ _
    rw [Mux.tasks, settled.handed, settled.pending] at member
    exact ⟨t, member, rfl, rfl⟩

end Faithful

variable [Outlets τ]

/-- Whatever is asked for and whatever the sinks answer, every send carries the start of
    the accepted message that its task was queued for, no message is sent to a sink
    twice, no buffer takes a message before its last one was sent to all sinks, and
    without tasks every message was sent to every sink. -/
theorem delivered_once (sizes : Mux.Sizes B Q) (settings : MuxSettings) (outlets : τ) (requests : List Request) :
    let first : Output B L Q (Tapped τ) := start settings { outlets }
    let o := answerAll requests first
    let l := Ledger.ofHistory (history requests first)
    List.Forall₂ (l.Carries L) l.deliveries o.outlets.calls ∧
    l.passed.Nodup ∧
    (∀ message e, (message, e) ∈ l.messages → (e.truncated = true ↔ L < message.length)) ∧
    (∀ i j message e message' e', l.messages[i]? = some (message, e) → l.messages[j]? = some (message', e') →
      i < j → e.buffer = e'.buffer → ∀ sink, (i, sink) ∈ l.passed) ∧
    (o.mux.pendingTasks = 0 → ∀ i < l.messages.length, ∀ sink, l.passed.count (i, sink) = 1) := by
  intro first o l
  have fresh := balanced_start (L := L) sizes settings ({ outlets } : Tapped τ)
  obtain ⟨steps, balanced⟩ := answerAll_steps sizes fresh requests
  have faithful : Faithful o l :=
    steps.keep (P := Faithful) (fun step faithful => faithful.step step) (faithful_start sizes settings outlets)
  refine ⟨faithful.calls, faithful.once, ?_, ?_, ?_⟩
  · intro message e member
    rw [faithful.truncated message e member, decide_eq_true_iff]
  · intro i j message e message' e' found found' before same sink
    rcases faithful.settled i message e found sink with passed | ⟨owned, -⟩
    · exact passed
    · have late := faithful.latest j message' e' found'
      rw [← same, owned] at late
      omega
  · intro idle
    obtain ⟨free, laid⟩ := balanced.laid
    refine faithful.all_passed balanced ?_
    rw [← List.length_eq_zero_iff, ← Mux.pendingTasks_eq laid]
    exact idle

/-- The second message waits for the only buffer, until the first one was sent to both sinks. -/
def reusedBuffer : List Request := [.tryEmit [1, 2, 3], .emit [1, 1] [4], .process, .processAll]

def beforeReuse : Output 1 2 4 (Tapped (Rehearsal Bench)) :=
  start {} { outlets := { board := {}, wifi := [.error .notConnected] } }

theorem delivered_once_reusedBuffer :
    (answerAll reusedBuffer beforeReuse).outlets.calls =
      [(.wifi, [1, 2]), (.console, [1, 2]), (.wifi, [4]), (.console, [4])] ∧
    List.Forall₂ ((Ledger.ofHistory (history reusedBuffer beforeReuse)).Carries 2)
      (Ledger.ofHistory (history reusedBuffer beforeReuse)).deliveries (answerAll reusedBuffer beforeReuse).outlets.calls ∧
    ∀ sink, (Ledger.ofHistory (history reusedBuffer beforeReuse)).passed.count (1, sink) = 1 := by
  obtain ⟨calls, -, -, -, complete⟩ :=
    delivered_once (B := 1) (L := 2) (Q := 4) ⟨by decide, ⟨2, rfl⟩, by decide⟩ {}
      ({ board := {}, wifi := [.error .notConnected] } : Rehearsal Bench) reusedBuffer
  exact ⟨by decide +kernel, calls, complete (by decide +kernel) 1 (by decide +kernel)⟩

end Output
end AirMonitor
