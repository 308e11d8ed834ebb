import AirMonitor.Proofs.Output.Conservation
import Mathlib.Logic.Function.Iterate

/-!
Waiting for a buffer ends. While no buffer is free some task holds a permit, so every turn
of the wait runs a task, and the tasks run out no later than the permits. The wait ends
with the turn that gives the last permit of a buffer back and takes as many turns as that
needs (`Output.back_pressure_ends`). A sleep on the way ends too, on every clock whose
delays take the time they were asked for (`Board.sleepUntil_ends`).
-/
namespace AirMonitor

/-- An attempt that fails at every turn of a hook is made again behind the last of them. -/
theorem wait_turns {α β : Type} {attempt : α → Option (β × α)} {hook : α → α} {turns : Nat} {s : α}
    (fails : ∀ k < turns, attempt (hook^[k] s) = none) (hooks : List (α → α)) :
    wait attempt (List.replicate turns hook ++ hooks) s = wait attempt hooks (hook^[turns] s) := by
  induction turns generalizing s with
  | zero => rfl
  | succ turns ih =>
    have now : attempt s = none := fails 0 (Nat.zero_lt_succ turns)
    have later : ∀ k < turns, attempt (hook^[k] (hook s)) = none := fun k before => fails (k + 1) (Nat.succ_lt_succ before)
    rw [List.replicate_succ, List.cons_append, wait, now, Function.iterate_succ_apply]
    exact ih later

namespace Output
variable {B L Q : Nat} {τ : Type} {o p : Output B L Q τ}

/-! ### Buffers that come free -/

/-- The last permit of some buffer was given back between the two. -/
def Frees (o p : Output B L Q τ) : Prop :=
  ∃ buffer, o.mux.pool.permits buffer ≠ 0 ∧ p.mux.pool.permits buffer = 0

theorem available_iff (balanced : o.mux.Balanced [] []) :
    o.mux.available ≠ 0 ↔ ∃ buffer : UInt16, buffer.toNat < B ∧ o.mux.pool.permits buffer = 0 := by
  rw [balanced.available_eq, ← Nat.pos_iff_ne_zero, Vector.countP_pos_iff]
  constructor
  · rintro ⟨b, member, is_free⟩
    obtain ⟨i, inside, rfl⟩ := Vector.mem_iff_getElem.mp member
    have index : (UInt16.ofNat i).toNat = i := balanced.pool.toNat_index inside
    refine ⟨.ofNat i, by rwa [index], ?_⟩
    simpa [BufferPool.permits, index, inside, Buffer.isFree] using is_free
  · rintro ⟨buffer, inside, unheld⟩
    refine ⟨o.mux.pool.buffers[buffer.toNat], Vector.getElem_mem inside, ?_⟩
    simpa [BufferPool.permits, inside, Buffer.isFree] using unheld

/-- Where no buffer is free, there is one after a change just if the change gave a last permit back. -/
theorem frees_iff (before : o.mux.Balanced [] []) (after : p.mux.Balanced [] []) (none_free : o.mux.available = 0) :
    o.Frees p ↔ p.mux.available ≠ 0 := by
  rw [available_iff after]
  constructor
  · rintro ⟨buffer, held, unheld⟩
    refine ⟨buffer, ?_, unheld⟩
    by_contra outside
    exact held (by simp [BufferPool.permits, Vector.getElem?_eq_none (Nat.not_lt.mp outside)])
  · rintro ⟨buffer, inside, unheld⟩
    refine ⟨buffer, fun free_before => ?_, unheld⟩
    exact (available_iff before).mpr ⟨buffer, inside, free_before⟩ none_free

variable [Outlets τ]

/-- While no buffer is free there is a task, and a turn runs it. -/
theorem serve_step (balanced : o.mux.Balanced [] []) (some_buffer : 0 < B) (none_free : o.mux.available = 0) :
    ∃ e, o.process = (some e, serve o) ∧ Step o (.ran e) (serve o) := by
  rcases process_step balanced with ⟨no_tasks, -⟩ | ⟨e, p, processed, step⟩
  · have all_free := (balanced.idle no_tasks).1
    omega
  · have served : serve o = p := congrArg Prod.snd processed
    rw [served]
    exact ⟨e, processed, step⟩

theorem balanced_serve (balanced : o.mux.Balanced [] []) : (serve o).mux.Balanced [] [] := by
  rcases process_step balanced with ⟨-, processed⟩ | ⟨e, p, processed, step⟩
  · rwa [show serve o = o from congrArg Prod.snd processed]
  · rw [show serve o = p from congrArg Prod.snd processed]
    exact step.after

theorem balanced_turns (balanced : o.mux.Balanced [] []) (turns : Nat) : (serve^[turns] o).mux.Balanced [] [] := by
  induction turns generalizing o with
  | zero => exact balanced
  | succ turns ih => exact ih (balanced_serve balanced)

/-- A buffer is free after at most as many turns as there are tasks. -/
theorem turns_until_free (balanced : o.mux.Balanced [] []) (some_buffer : 0 < B) :
    ∃ turns ≤ o.mux.tasks.length,
      (∀ k < turns, (serve^[k] o).mux.available = 0) ∧ (serve^[turns] o).mux.available ≠ 0 := by
  induction count : o.mux.tasks.length generalizing o with
  | zero =>
    have all_free := (balanced.idle (List.length_eq_zero_iff.mp count)).1
    refine ⟨0, Nat.le_refl 0, nofun, ?_⟩
    show o.mux.available ≠ 0
    omega
  | succ count ih =>
    by_cases none_free : o.mux.available = 0
    · obtain ⟨e, -, step⟩ := serve_step balanced some_buffer none_free
      have one_less : o.mux.tasks.length = (serve o).mux.tasks.length + 1 := Ran.length_tasks step.effect
      obtain ⟨turns, few, waits, free⟩ := ih step.after (by omega)
      refine ⟨turns + 1, Nat.succ_le_succ few, ?_, free⟩
      intro k before
      cases k with
      | zero => exact none_free
      | succ k => exact waits k (Nat.lt_of_succ_lt_succ before)
    · exact ⟨0, Nat.zero_le _, nofun, none_free⟩

/-! ### Waiting for a buffer -/

/-- A message that finds no free buffer waits while turns run the pending tasks. In every turn
    before the last no buffer comes free, the last one gives the last permit of a buffer back,
    and then the message is accepted at once. There are no more turns than tasks were pending,
    and none if a buffer was free. A sleep among the tasks ends on every clock that keeps time. -/
theorem back_pressure_ends (sizes : Mux.Sizes B Q) (some_buffer : 0 < B) (settings : MuxSettings) (outlets : τ)
    (requests : List Request) (message : Bytes) :
    let o : Output B L Q τ := answerAll requests (start settings outlets)
    (∃ turns ≤ o.mux.pendingTasks,
      (o.mux.available ≠ 0 → turns = 0) ∧
      (∀ k < turns,
        o.emitWith (List.replicate k serve) message = ⟨none, serve^[k] o, []⟩ ∧
        (serve^[k] o).mux.available = 0 ∧ (serve^[k] o).process.1 ≠ none ∧
        ((serve^[k] o).Frees (serve^[k + 1] o) ↔ k + 1 = turns)) ∧
      ∃ e p, Accepted (serve^[turns] o) message e p ∧
        ∀ hooks, o.emitWith (List.replicate turns serve ++ hooks) message = ⟨some e, p, hooks⟩) ∧
    o.mux.pendingTasks ≤ 2 * B + 1 ∧
    ∀ (σ : Type) [Board σ], Board.KeepsTime σ → ∀ deadline (s : σ),
      deadline ≤ Board.now (Board.sleepUntil deadline s) ∧
        ∀ more, Board.sleepRounds deadline ((deadline.toInt - (Board.now s).toInt).toNat + more) s =
          Board.sleepUntil deadline s := by
  intro o
  obtain ⟨-, balanced⟩ := answerAll_steps sizes (balanced_start (L := L) sizes settings outlets) requests
  change o.mux.Balanced [] [] at balanced
  obtain ⟨free, laid⟩ := balanced.laid
  have pending : o.mux.pendingTasks = o.mux.tasks.length := Mux.pendingTasks_eq laid
  obtain ⟨turns, few, waits, comes_free⟩ := turns_until_free balanced some_buffer
  have fails : ∀ k < turns, attempt (Mux.lease? message) (serve^[k] o) = none := fun k before =>
    no_lease (waits k before) message
  refine ⟨⟨turns, pending ▸ few, ?_, ?_, ?_⟩, ?_, fun σ _ => Board.sleepUntil_ends⟩
  · intro some_free
    by_contra some_turn
    exact some_free (waits 0 (Nat.pos_of_ne_zero some_turn))
  · intro k before
    have balanced_now := balanced_turns balanced k
    have next : serve^[k + 1] o = serve (serve^[k] o) := Function.iterate_succ_apply' serve k o
    refine ⟨?_, waits k before, ?_, ?_⟩
    · have waited := wait_turns (fun j earlier => fails j (Nat.lt_trans earlier before)) []
      rw [List.append_nil] at waited
      rw [emitWith, waited, wait, fails k before]
    · obtain ⟨e, processed, -⟩ := serve_step balanced_now some_buffer (waits k before)
      simp [processed]
    · rw [frees_iff balanced_now (balanced_turns balanced (k + 1)) (waits k before)]
      constructor
      · intro some_free
        by_contra another
        exact some_free (waits (k + 1) (by omega))
      · rintro rfl
        exact comes_free
  · obtain ⟨leased, leasing, e, p, found, dispatched, step⟩ :=
      accepted_step sizes (balanced_turns balanced turns) comes_free message
    refine ⟨e, p, step.effect, fun hooks => ?_⟩
    rw [emitWith, wait_turns fails hooks, wait_of_attempt found]
    exact dispatched hooks
  · have room := balanced.room
    rw [List.length_nil] at room
    omega

/-- The only buffer is in use, and a sleep is more urgent than the tasks of its message. -/
def sleepAhead : Output 1 2 4 (Rehearsal Bench) :=
  answerAll [.configure { sleepPriority := 0 }, .tryEmit [1, 2, 3], .requestSleep (.ofMillis 5)]
    (start {} { board := {}, wifi := [.error .notConnected] })

theorem back_pressure_ends_sleepAhead :
    (Mux.Sizes 1 4 ∧ 0 < 1 ∧ Board.KeepsTime Bench) ∧ sleepAhead.mux.available = 0 ∧
      (∃ e p, ∀ hooks, sleepAhead.emitWith (List.replicate 3 serve ++ hooks) [4] = ⟨some e, p, hooks⟩) ∧
      ∀ (deadline : Instant) (b : Bench), deadline ≤ Board.now (Board.sleepUntil deadline b) := by
  have sizes : Mux.Sizes 1 4 := ⟨by decide, ⟨2, rfl⟩, by decide⟩
  obtain ⟨⟨turns, few, -, -, e, p, -, ends⟩, -, sleeps⟩ :=
    back_pressure_ends (L := 2) sizes Nat.one_pos {}
      ({ board := {}, wifi := [.error .notConnected] } : Rehearsal Bench)
      [.configure { sleepPriority := 0 }, .tryEmit [1, 2, 3], .requestSleep (.ofMillis 5)] [4]
  have pending : sleepAhead.mux.pendingTasks = 3 := by decide +kernel
  have waits : (sleepAhead.emitWith (List.replicate 2 serve) [4]).result = none := by decide +kernel
  have enough : turns = 3 := by
    have few' : turns ≤ 3 := pending ▸ few
    by_contra fewer
    have ends_early := ends (List.replicate (2 - turns) serve)
    rw [List.replicate_append_replicate, show turns + (2 - turns) = 2 by omega] at ends_early
    rw [show sleepAhead.emitWith (List.replicate 2 serve) [4] = _ from ends_early] at waits
    simp at waits
  subst enough
  refine ⟨⟨sizes, Nat.one_pos, Bench.keepsTime⟩, by decide +kernel, ⟨e, p, ends⟩, fun deadline b => ?_⟩
  exact (sleeps Bench Bench.keepsTime deadline b).1

end Output
end AirMonitor
