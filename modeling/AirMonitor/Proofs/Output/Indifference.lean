import AirMonitor.Board.Bench
import AirMonitor.Output.Rehearsal
import AirMonitor.Proofs.Output.Requests
import Mathlib.Data.List.Forall2

/-!
What the sinks answer has no influence on what the multiplexer does. Two outputs that serve
the same requests, whatever their outlets are, stay abreast of each other: they have the same
multiplexer, ran the same tasks and told their outlets the same (`Abreast`). Every operation
keeps two outputs abreast, with hooks that do so too, and so do all requests
(`Output.indifferent_to_outcomes`). The outcomes of the tasks are all that may differ.
-/
namespace AirMonitor

/-- Something that outlets are told. -/
inductive Call
  | send (sink : SinkId) (payload : Bytes)
  | sleepUntil (deadline : Instant)
deriving DecidableEq

/-- Outlets that remember what they were told. -/
structure Witnessed (τ : Type) where
  outlets : τ
  /-- The calls, in order. -/
  calls : List Call := []

instance {τ : Type} [Outlets τ] : Outlets (Witnessed τ) where
  send sink payload w :=
    let (result, outlets) := Outlets.send sink payload w.outlets
    (result, { outlets, calls := w.calls ++ [.send sink payload] })
  sleepUntil deadline w :=
    { outlets := Outlets.sleepUntil deadline w.outlets, calls := w.calls ++ [.sleepUntil deadline] }

namespace Output
variable {B L Q : Nat} {τ τ' : Type} {o : Output B L Q (Witnessed τ)} {p : Output B L Q (Witnessed τ')}

/-- The outputs differ at most in their outlets and in what became of the tasks. -/
structure Abreast (o : Output B L Q (Witnessed τ)) (p : Output B L Q (Witnessed τ')) : Prop where
  mux : o.mux = p.mux
  calls : o.outlets.calls = p.outlets.calls
  tasks : o.executed.map Executed.task = p.executed.map Executed.task

theorem Abreast.onMux (abreast : Abreast o p) (mux : Mux B L Q) : Abreast { o with mux } { p with mux } :=
  ⟨rfl, abreast.calls, abreast.tasks⟩

/-! ### Waiting -/

/-- The hooks keep outputs abreast, one by one. -/
abbrev Paired : List (Hook B L Q (Witnessed τ)) → List (Hook B L Q (Witnessed τ')) → Prop :=
  List.Forall₂ fun hook hook' => ∀ o p, Abreast o p → Abreast (hook o) (hook' p)

/-- Two waits came equally far. -/
structure Level {β : Type} (w : Waited (Output B L Q (Witnessed τ)) β)
    (w' : Waited (Output B L Q (Witnessed τ')) β) : Prop where
  result : w.result = w'.result
  state : Abreast w.state w'.state
  unused : Paired w.unused w'.unused

variable {hooks : List (Hook B L Q (Witnessed τ))} {hooks' : List (Hook B L Q (Witnessed τ'))}

/-- A step of the multiplexer can be taken by both outputs or by none. -/
theorem Abreast.attempt {β : Type} (abreast : Abreast o p) (f : Mux B L Q → Option (β × Mux B L Q)) :
    (Output.attempt f o = none ∧ Output.attempt f p = none) ∨
      ∃ b mux, Output.attempt f o = some (b, { o with mux }) ∧ Output.attempt f p = some (b, { p with mux }) := by
  unfold Output.attempt
  rw [← abreast.mux]
  cases f o.mux with
  | none => exact .inl ⟨rfl, rfl⟩
  | some taken => exact .inr ⟨taken.1, taken.2, rfl, rfl⟩

theorem Abreast.wait {β : Type} (abreast : Abreast o p) (f : Mux B L Q → Option (β × Mux B L Q))
    (paired : Paired hooks hooks') : Level (wait (Output.attempt f) hooks o) (wait (Output.attempt f) hooks' p) := by
  induction paired generalizing o p with
  | nil =>
    rcases abreast.attempt f with ⟨tried, tried'⟩ | ⟨b, mux, tried, tried'⟩
    · simp only [AirMonitor.wait, tried, tried']
      exact ⟨rfl, abreast, .nil⟩
    · rw [wait_of_attempt tried, wait_of_attempt tried']
      exact ⟨rfl, abreast.onMux mux, .nil⟩
  | cons keeps paired ih =>
    rcases abreast.attempt f with ⟨tried, tried'⟩ | ⟨b, mux, tried, tried'⟩
    · simp only [AirMonitor.wait, tried, tried']
      exact ih (keeps _ _ abreast)
    · rw [wait_of_attempt tried, wait_of_attempt tried']
      exact ⟨rfl, abreast.onMux mux, .cons keeps paired⟩

/-! ### Producing -/

theorem Abreast.enqueue (abreast : Abreast o p) (paired : Paired hooks hooks') (task : Task) :
    Level (o.enqueue hooks task) (p.enqueue hooks' task) := by
  have slot := abreast.wait (Mux.alloc? task) paired
  unfold Output.enqueue
  simp only [← slot.result]
  cases (AirMonitor.wait (Output.attempt (Mux.alloc? task)) hooks o).result with
  | none => exact ⟨rfl, slot.state, slot.unused⟩
  | some handle => exact slot.state.wait (Mux.push? handle) slot.unused

theorem Abreast.enqueueFor (abreast : Abreast o p) (paired : Paired hooks hooks') (buffer : UInt16) (seq : UInt32)
    (sinks : List SinkId) : Level (o.enqueueFor hooks buffer seq sinks) (p.enqueueFor hooks' buffer seq sinks) := by
  induction sinks generalizing o p hooks hooks' with
  | nil => exact ⟨rfl, abreast, paired⟩
  | cons sink sinks ih =>
    have queued := abreast.enqueue paired { action := .send sink buffer, priority := o.mux.priorityOf sink, seq }
    unfold Output.enqueueFor
    simp only [← abreast.mux, ← queued.result]
    cases result : (o.enqueue hooks { action := .send sink buffer, priority := o.mux.priorityOf sink, seq }).result with
    | none => exact queued
    | some => exact ih queued.state queued.unused

theorem Abreast.dispatch (abreast : Abreast o p) (paired : Paired hooks hooks') (leased : Leased) :
    Level (o.dispatch hooks leased) (p.dispatch hooks' leased) := by
  have queued := (abreast.onMux o.mux.takeSeq.2).enqueueFor paired leased.index o.mux.takeSeq.1 SinkId.all
  unfold Output.dispatch
  rw [← abreast.mux]
  exact ⟨congrArg (Option.map _) queued.result, queued.state, queued.unused⟩

theorem Abreast.emitWith (abreast : Abreast o p) (paired : Paired hooks hooks') (message : Bytes) :
    Level (o.emitWith hooks message) (p.emitWith hooks' message) := by
  have leased := abreast.wait (Mux.lease? message) paired
  unfold Output.emitWith
  simp only [← leased.result]
  cases (AirMonitor.wait (Output.attempt (Mux.lease? message)) hooks o).result with
  | none => exact ⟨rfl, leased.state, leased.unused⟩
  | some buffer => exact leased.state.dispatch leased.unused buffer

theorem Abreast.tryEmit (abreast : Abreast o p) (message : Bytes) : Level (o.tryEmit message) (p.tryEmit message) := by
  unfold Output.tryEmit
  rcases abreast.attempt (Mux.lease? message) with ⟨tried, tried'⟩ | ⟨leased, mux, tried, tried'⟩
  · rw [tried, tried']
    exact ⟨rfl, abreast, .nil⟩
  · rw [tried, tried']
    have dispatched := (abreast.onMux mux).dispatch .nil leased
    exact ⟨congrArg (Option.map _) dispatched.result, dispatched.state, dispatched.unused⟩

theorem Abreast.requestSleep (abreast : Abreast o p) (deadline : Instant) :
    Level (o.requestSleep deadline) (p.requestSleep deadline) := by
  unfold Output.requestSleep
  rw [← abreast.mux]
  by_cases asleep : o.mux.sleepPending = true
  · simp only [if_pos asleep]
    exact ⟨rfl, abreast, .nil⟩
  · simp only [if_neg asleep]
    have queued := (abreast.onMux (Mux.takeSeq { o.mux with sleepPending := true }).2).enqueue .nil
      { action := .sleepUntil deadline, priority := o.mux.sleepPriority, seq := o.mux.nextSeq }
    exact ⟨congrArg (Option.map _) queued.result, queued.state, queued.unused⟩

/-! ### Replies -/

/-- Replies that differ at most in what became of a task. -/
inductive Reply.Agrees : Reply → Reply → Prop
  | same (r : Reply) : Agrees r r
  | ran {e e' : Option Executed} (task : e.map Executed.task = e'.map Executed.task) : Agrees (.ran e) (.ran e')

theorem Level.replies {β : Type} {w : Waited (Output B L Q (Witnessed τ)) β}
    {w' : Waited (Output B L Q (Witnessed τ')) β} (level : Level w w') (reply : β → Reply) :
    Reply.Agrees (w.result.elim .waiting reply) (w'.result.elim .waiting reply) := by
  rw [level.result]
  exact .same _

/-! ### Running tasks -/

variable [Outlets τ] [Outlets τ']

/-- Whatever a sink answers, its permit is given back. -/
theorem Abreast.run (abreast : Abreast o p) (task : Task) : Abreast (o.run task).2 (p.run task).2 := by
  unfold Output.run
  cases task.action with
  | send sink buffer =>
    simp only [← abreast.mux]
    cases o.mux.pool.payload? buffer sink with
    | none => exact ⟨rfl, abreast.calls, abreast.tasks⟩
    | some payload => exact ⟨rfl, congrArg (· ++ [Call.send sink payload]) abreast.calls, abreast.tasks⟩
  | sleepUntil deadline =>
    simp only [← abreast.mux]
    exact ⟨rfl, congrArg (· ++ [Call.sleepUntil deadline]) abreast.calls, abreast.tasks⟩

theorem Abreast.process (abreast : Abreast o p) :
    o.process.1.map Executed.task = p.process.1.map Executed.task ∧ Abreast o.process.2 p.process.2 := by
  unfold Output.process
  rw [← abreast.mux]
  rcases o.mux.next? with ⟨_ | ⟨handle, task⟩, mux⟩
  · exact ⟨rfl, abreast.onMux mux⟩
  · have ran := (abreast.onMux mux).run task
    refine ⟨rfl, ?_, ran.calls, ?_⟩
    · exact congrArg (fun mux : Mux B L Q => { mux with arena := mux.arena.free handle }) ran.mux
    · exact congrArg (task :: ·) ran.tasks

theorem Abreast.processUpTo (abreast : Abreast o p) (limit : Nat) :
    (o.processUpTo limit).1 = (p.processUpTo limit).1 ∧ Abreast (o.processUpTo limit).2 (p.processUpTo limit).2 := by
  induction limit generalizing o p with
  | zero => exact ⟨rfl, abreast⟩
  | succ limit ih =>
    obtain ⟨task, after⟩ := abreast.process
    unfold Output.processUpTo
    generalize o.process = ran at task after
    generalize p.process = ran' at task after
    rcases ran with ⟨_ | e, o'⟩ <;> rcases ran' with ⟨_ | e', p'⟩
    · exact ⟨rfl, after⟩
    · cases task
    · cases task
    · obtain ⟨count, rest⟩ := ih after
      exact ⟨congrArg (· + 1) count, rest⟩

theorem paired_relaxing (relax : List Nat) :
    Paired (relaxing relax : List (Hook B L Q (Witnessed τ))) (relaxing relax : List (Hook B L Q (Witnessed τ'))) := by
  unfold relaxing Paired
  rw [List.forall₂_map_left_iff, List.forall₂_map_right_iff]
  exact List.forall₂_same.mpr fun count _ o p abreast => (abreast.processUpTo count).2

/-! ### Serving requests -/

/-- The replies to a run of requests. -/
def replies {τ : Type} [Outlets τ] : List Request → Output B L Q τ → List Reply
  | [], _ => []
  | request :: requests, o => (o.answer request).1 :: replies requests (o.answer request).2

theorem Abreast.answer (abreast : Abreast o p) (request : Request) :
    Reply.Agrees (o.answer request).1 (p.answer request).1 ∧ Abreast (o.answer request).2 (p.answer request).2 := by
  cases request with
  | emit relax message =>
    have level := abreast.emitWith (paired_relaxing relax) message
    exact ⟨level.replies _, level.state⟩
  | tryEmit message =>
    have level := abreast.tryEmit message
    exact ⟨level.replies _, level.state⟩
  | requestSleep deadline =>
    have level := abreast.requestSleep deadline
    exact ⟨level.replies _, level.state⟩
  | configure settings => exact ⟨.same _, congrArg (Mux.configure settings) abreast.mux, abreast.calls, abreast.tasks⟩
  | setFairness fairness =>
    exact ⟨.same _, congrArg (Mux.setFairness fairness) abreast.mux, abreast.calls, abreast.tasks⟩
  | process => exact ⟨.ran abreast.process.1, abreast.process.2⟩
  | processAll =>
    have served := abreast.processUpTo o.mux.pendingTasks
    unfold Output.answer Output.processAll
    rw [← abreast.mux]
    refine ⟨?_, served.2⟩
    rw [served.1]
    exact .same _

theorem Abreast.answerAll (abreast : Abreast o p) (requests : List Request) :
    List.Forall₂ Reply.Agrees (Output.replies requests o) (Output.replies requests p) ∧
      Abreast (Output.answerAll requests o) (Output.answerAll requests p) := by
  induction requests generalizing o p with
  | nil => exact ⟨.nil, abreast⟩
  | cons request requests ih =>
    obtain ⟨agrees, after⟩ := abreast.answer request
    obtain ⟨others, final⟩ := ih after
    exact ⟨.cons agrees others, final⟩

/-- Whatever two sets of outlets answer and however long they take, the same requests run
    the same tasks in the same order, tell the outlets the same in the same order, get the
    same replies up to the outcomes of the tasks, and end in the same multiplexer. -/
theorem indifferent_to_outcomes (settings : MuxSettings) (outlets : τ) (outlets' : τ') (requests : List Request) :
    let first : Output B L Q (Witnessed τ) := start settings { outlets }
    let first' : Output B L Q (Witnessed τ') := start settings { outlets := outlets' }
    let o := answerAll requests first
    let o' := answerAll requests first'
    List.Forall₂ Reply.Agrees (replies requests first) (replies requests first') ∧
    o.executed.map Executed.task = o'.executed.map Executed.task ∧
    o.outlets.calls = o'.outlets.calls ∧
    o.mux = o'.mux := by
  intro first first' o o'
  have abreast : Abreast first first' := ⟨rfl, rfl, rfl⟩
  obtain ⟨agree, final⟩ := abreast.answerAll requests
  exact ⟨agree, final.tasks, final.calls, final.mux⟩

/-- Sinks that refuse make a difference to the outcomes. -/
example :
    let o : Output 1 2 4 (Rehearsal Bench) := start {} { board := {} }
    let o' : Output 1 2 4 (Rehearsal Bench) := start {} { board := {}, wifi := [.error .notConnected] }
    replies [.tryEmit [1], .process] o ≠ replies [.tryEmit [1], .process] o' := by
  decide +kernel

end Output
end AirMonitor
