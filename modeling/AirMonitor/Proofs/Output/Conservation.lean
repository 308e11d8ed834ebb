import AirMonitor.Output.Rehearsal
import AirMonitor.Proofs.Board.Sleeping
import AirMonitor.Proofs.Output.Steps

/-!
Nothing leaks. Between two requests every permit and the sleep flag have their one
task, and every slot is free or has a task; so no producer waits for a slot, no task
finds its permit gone, and the output falls idle with everything given back
(`Output.nothing_leaks`).
-/
namespace AirMonitor

namespace Mux
variable {B L Q : Nat}

/-- How many tasks wait to send a buffer to a sink. -/
def sends (m : Mux B L Q) (sink : SinkId) (buffer : UInt16) : Nat :=
  m.tasks.countP fun t => t.action = .send sink buffer

/-- How many tasks wait to sleep. -/
def sleeps (m : Mux B L Q) : Nat := m.tasks.countP Task.isSleep

namespace Balanced
variable {m : Mux B L Q}

theorem sends_eq (balanced : m.Balanced [] []) (sink : SinkId) (buffer : UInt16) :
    m.sends sink buffer = (m.pool.holds sink buffer).toNat := by
  have matched := balanced.matched (.send sink buffer)
  rw [List.append_nil, List.count, List.countP_map] at matched
  rw [← show m.due (.send sink buffer) = m.pool.holds sink buffer from rfl, ← matched, sends]
  refine List.countP_congr ?_
  intro t _
  cases action : t.action <;> simp [Task.duty, action]

theorem sleeps_eq (balanced : m.Balanced [] []) : m.sleeps = m.sleepPending.toNat := by
  have matched := balanced.matched .sleep
  rw [List.append_nil, List.count, List.countP_map] at matched
  rw [← show m.due .sleep = m.sleepPending from rfl, ← matched, sleeps]
  refine List.countP_congr ?_
  intro t _
  cases action : t.action <;> simp [Task.duty, Task.isSleep, action]

theorem available_eq (balanced : m.Balanced [] []) : m.available = m.pool.buffers.countP Buffer.isFree :=
  balanced.pool.counted

theorem slots_eq (balanced : m.Balanced [] []) : m.freeTasks + m.pendingTasks = Q := by
  obtain ⟨free, laid⟩ := balanced.laid
  have lengths := laid.length_eq
  rw [List.append_nil, HandoffRing.length_toList] at lengths
  rw [freeTasks, pendingTasks, laid.freeCount, laid.pendingCount]
  omega

/-- Without tasks nothing is due. -/
theorem idle (balanced : m.Balanced [] []) (no_tasks : m.tasks = []) :
    m.available = B ∧ m.freeTasks = Q ∧ m.sleepPending = false := by
  have nothing_due : ∀ d, m.due d = false := by
    intro d
    have matched := balanced.matched d
    rw [no_tasks] at matched
    exact Bool.toNat_eq_zero.mp matched.symm
  obtain ⟨free, laid⟩ := balanced.laid
  refine ⟨?_, ?_, nothing_due .sleep⟩
  · rw [balanced.available_eq, Vector.countP_eq_size]
    intro b member
    obtain ⟨i, inside, rfl⟩ := Vector.mem_iff_getElem.mp member
    rw [balanced.pool.free_iff inside]
    exact fun sink => nothing_due (.send sink (.ofNat i))
  · have whole := balanced.slots_eq
    rw [pendingTasks_eq laid, no_tasks] at whole
    exact whole

end Balanced
end Mux

namespace Output
variable {B L Q : Nat} {τ : Type} [Outlets τ]

/-- After any requests the free buffers are those without permits, the permits and the
    sleep flag have one task each, and every slot is free or has a task. A message finds
    its slots at once, and so does a sleep; a task that is taken finds its permit; what is
    refused changes nothing; and after as many tasks as are pending all is given back. -/
theorem nothing_leaks (sizes : Mux.Sizes B Q) (settings : MuxSettings) (outlets : τ) (requests : List Request) :
    let o : Output B L Q τ := answerAll requests (start settings outlets)
    o.mux.available = o.mux.pool.buffers.countP Buffer.isFree ∧
    (∀ sink buffer, (o.mux.pool.permits buffer &&& sink.bit ≠ 0 ↔ o.mux.sends sink buffer = 1) ∧
      (o.mux.pool.permits buffer &&& sink.bit = 0 ↔ o.mux.sends sink buffer = 0)) ∧
    o.mux.freeTasks + o.mux.pendingTasks = Q ∧
    (o.mux.sleepPending = true ↔ o.mux.sleeps = 1) ∧ (o.mux.sleepPending = false ↔ o.mux.sleeps = 0) ∧
    (∀ message leased leasing, attempt (Mux.lease? message) o = some (leased, leasing) →
      ∃ e p, ∀ hooks, leasing.dispatch hooks leased = ⟨some e, p, hooks⟩) ∧
    (∀ handle task mux, o.mux.next? = (some (handle, task), mux) → ∀ sink buffer, task.action = .send sink buffer →
      mux.pool.payload? buffer sink ≠ none) ∧
    (∀ message, o.tryEmit message = ⟨some (.error .poolExhausted), o, []⟩ ∨
      ∃ e p, o.tryEmit message = ⟨some (.ok e), p, []⟩) ∧
    (∀ deadline, o.requestSleep deadline = ⟨some false, o, []⟩ ∨ ∃ p, o.requestSleep deadline = ⟨some true, p, []⟩) ∧
    (∀ limit, o.mux.pendingTasks ≤ limit → ∃ p, o.processUpTo limit = (o.mux.pendingTasks, p) ∧
      p.process = (none, p) ∧ p.executed.length = o.executed.length + o.mux.pendingTasks ∧
      p.mux.available = B ∧ p.mux.freeTasks = Q ∧ p.mux.sleepPending = false) ∧
    ∀ (σ : Type) [Board σ], Board.Advances σ → ∀ deadline (s : σ), deadline ≤ Board.now (Board.sleepUntil deadline s) := by
  intro o
  obtain ⟨-, balanced⟩ := answerAll_steps sizes (balanced_start (L := L) sizes settings outlets) requests
  change o.mux.Balanced [] [] at balanced
  obtain ⟨free, laid⟩ := balanced.laid
  refine ⟨balanced.available_eq, ?_, balanced.slots_eq, ?_, ?_, ?_, ?_, ?_, ?_, ?_, ?_⟩
  · intro sink buffer
    rw [balanced.sends_eq, BufferPool.holds]
    by_cases held : o.mux.pool.permits buffer &&& sink.bit = 0
    · simp [held]
    · simp [held]
  · rw [balanced.sleeps_eq]
    cases o.mux.sleepPending <;> simp
  · rw [balanced.sleeps_eq]
    cases o.mux.sleepPending <;> simp
  · intro message leased leasing found
    by_cases none_free : o.mux.available = 0
    · simp [no_lease none_free] at found
    · obtain ⟨leased', leasing', e, p, found', dispatched, -⟩ := accepted_step sizes balanced none_free message
      obtain ⟨rfl, rfl⟩ := Prod.mk.inj (Option.some.inj (found.symm.trans found'))
      exact ⟨e, p, dispatched⟩
  · intro handle task mux next sink buffer action
    rcases balanced.next with ⟨-, idle⟩ | ⟨handle', t, ring, arena, next', taken, -⟩
    · simp [idle] at next
    · rw [next'] at next
      obtain ⟨taken_eq, rfl⟩ := Prod.mk.inj next
      obtain ⟨rfl, rfl⟩ := Prod.mk.inj (Option.some.inj taken_eq)
      have held : o.mux.pool.holds sink buffer = true :=
        (taken.mem_iff (.send sink buffer)).mp (by simp [Task.duty, action])
      simp [BufferPool.payload?_eq, held]
  · intro message
    rcases tryEmit_step sizes balanced message with ⟨-, refused⟩ | ⟨e, p, -, accepted, -⟩
    · exact .inl refused
    · exact .inr ⟨e, p, accepted⟩
  · intro deadline
    cases pending : o.mux.sleepPending with
    | true => exact .inl (by simp [requestSleep, pending])
    | false =>
      obtain ⟨p, asked, -⟩ := dozed_step sizes balanced pending deadline
      exact .inr ⟨p, asked⟩
  · intro limit enough
    obtain ⟨rans, served, count, length, left⟩ := processUpTo_served balanced limit
    rw [Mux.pendingTasks_eq laid] at enough ⊢
    have none_left : (o.processUpTo limit).2.mux.tasks = [] := by
      rw [← List.length_eq_zero_iff, left]
      omega
    have all : rans.length = o.mux.tasks.length := by omega
    refine ⟨(o.processUpTo limit).2, ?_, ?_, ?_, served.balanced.idle none_left⟩
    · rw [← all, ← count]
    · rcases process_step served.balanced with ⟨-, processed⟩ | ⟨e, p, -, step⟩
      · exact processed
      · have shorter := Ran.length_tasks step.effect
        rw [none_left] at shorter
        simp at shorter
    · rw [served.executed, List.length_append, List.length_reverse, all, Nat.add_comm]
  · intro σ _ advances deadline s
    exact Board.sleepUntil_reaches advances deadline s

/-- A message and a sleep, and then the more urgent of the message's tasks is run. -/
def servedOnce : Output 1 2 4 (Rehearsal Bench) :=
  answerAll [.tryEmit [1, 2, 3], .requestSleep (.ofMillis 5), .process]
    (start {} { board := {}, wifi := [.error .notConnected] })

theorem nothing_leaks_servedOnce :
    servedOnce.mux.available = 0 ∧ servedOnce.mux.sends .console 0 = 1 ∧ servedOnce.mux.sends .wifi 0 = 0 ∧
      servedOnce.mux.sleeps = 1 ∧ servedOnce.mux.freeTasks + servedOnce.mux.pendingTasks = 4 ∧
      servedOnce.tryEmit [4] = ⟨some (.error .poolExhausted), servedOnce, []⟩ ∧
      ∃ p, servedOnce.processUpTo 9 = (2, p) ∧ p.mux.available = 1 ∧ p.mux.freeTasks = 4 ∧ p.mux.sleepPending = false := by
  obtain ⟨available, permits, slots, sleeping, -, -, -, tried, -, drained, -⟩ :=
    nothing_leaks (B := 1) (L := 2) (Q := 4) ⟨by decide, ⟨2, rfl⟩, by decide⟩ {}
      ({ board := {}, wifi := [.error .notConnected] } : Rehearsal Bench)
      [.tryEmit [1, 2, 3], .requestSleep (.ofMillis 5), .process]
  have pending : servedOnce.mux.pendingTasks = 2 := by decide +kernel
  have refused : (servedOnce.tryEmit [4]).result = some (.error .poolExhausted) := by decide +kernel
  obtain ⟨p, processed, -, -, given_back⟩ := drained 9 (by decide +kernel)
  refine ⟨available.trans (by decide +kernel), (permits .console 0).1.mp (by decide +kernel),
    (permits .wifi 0).2.mp (by decide +kernel), sleeping.mp (by decide +kernel), slots, ?_, p, ?_, given_back⟩
  · rcases tried [4] with unchanged | ⟨e, q, accepted⟩
    · exact unchanged
    · rw [show servedOnce.tryEmit [4] = _ from accepted] at refused
      simp at refused
  · exact processed.trans (Prod.ext pending rfl)

end Output
end AirMonitor
