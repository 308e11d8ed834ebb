import AirMonitor.Output.Mux
import AirMonitor.Proofs.Output.Handoff
import AirMonitor.Proofs.Output.Layout
import AirMonitor.Proofs.Output.Permits

/-!
The books of the multiplexer. Every permit a sink holds on a buffer, and the pending
sleep, stand for one task that waits to run, and no task waits for anything else
(`Mux.Balanced`). A message is entered by its two permits and a task struck off with
its permit, so the tasks never outnumber the permits of all buffers and one sleep,
and a slot is left whenever a task is to be queued (`Mux.Balanced.room`).
-/
namespace AirMonitor

/-- What a task waits for: to give back a permit, or to end the pending sleep. -/
inductive Duty
  | send (sink : SinkId) (buffer : UInt16)
  | sleep
deriving DecidableEq

namespace Task

def duty (t : Task) : Duty :=
  match t.action with
  | .send sink buffer => .send sink buffer
  | .sleepUntil _ => .sleep

/-- The task as it was queued. -/
def original (t : Task) : Task := { t with bypassed := 0 }

@[simp] theorem original_bypass (t : Task) : t.bypass.original = t.original := by
  unfold bypass
  split <;> rfl

end Task

theorem TaskArena.original_placed (fairness : Fairness) (ts : List Task) (t : Task) :
    ((placed fairness ts t).map Task.original).Perm (t.original :: ts.map Task.original) := by
  have charged : Task.original ∘ Task.bypass = Task.original := funext Task.original_bypass
  rw [placed, List.map_append, List.map_cons, List.map_map, charged]
  refine List.perm_middle.trans ?_
  rw [← List.map_append, List.take_append_drop]

/-- Putting tasks into order neither loses nor changes one, bypasses apart. -/
theorem TaskArena.original_placedAll (fairness : Fairness) (new ts : List Task) :
    ((new.foldl (placed fairness) ts).map Task.original).Perm (new.map Task.original ++ ts.map Task.original) := by
  induction new generalizing ts with
  | nil => exact .refl _
  | cons t new ih =>
    refine (ih (placed fairness ts t)).trans ?_
    refine ((original_placed fairness ts t).append_left _).trans ?_
    exact List.perm_middle

theorem TaskArena.duty_placedAll (fairness : Fairness) (new ts : List Task) :
    ((new.foldl (placed fairness) ts).map Task.duty).Perm ((new ++ ts).map Task.duty) := by
  have through : ∀ l : List Task, l.map Task.duty = (l.map Task.original).map Task.duty := by
    intro l
    rw [List.map_map]
    rfl
  rw [through, through (new ++ ts), List.map_append (f := Task.original)]
  exact (original_placedAll fairness new ts).map Task.duty

namespace Mux
variable {B L Q : Nat}

/-- The sizes that a multiplexer is made for. -/
structure Sizes (B Q : Nat) : Prop where
  covers : 2 * B + 1 ≤ Q
  power : ∃ k, Q = 2 ^ k
  small : Q < 65535

theorem Sizes.fits (sizes : Sizes B Q) : HandoffRing.Fits Q := by
  obtain ⟨k, rfl⟩ := sizes.power
  exact HandoffRing.fits_of_pow (by have := sizes.small; omega)

/-- The tasks that were handed over and are not in order yet. -/
def handed (m : Mux B L Q) : List Task := m.ring.toList.map m.arena.task

/-- The tasks that wait to run. -/
def tasks (m : Mux B L Q) : List Task := m.handed ++ m.arena.pending

/-- Whether there is a permit to give back, or a sleep to end. -/
def due (m : Mux B L Q) : Duty → Bool
  | .send sink buffer => m.pool.holds sink buffer
  | .sleep => m.sleepPending

/-- One task waits for everything that is due, but for what is still to be queued; the
    slots in `taken` are neither free nor waiting. -/
structure Balanced (m : Mux B L Q) (taken : List UInt16) (unqueued : List Duty) : Prop where
  laid : ∃ free, TaskArena.Layout m.arena free m.arena.line (m.ring.toList ++ taken)
  pool : m.pool.Sound
  matched : ∀ d, (m.tasks.map Task.duty ++ unqueued).count d = (m.due d).toNat

/-- Everything that may be due. -/
def allDuties (B : Nat) : List Duty :=
  .sleep :: (List.range B).flatMap fun i => SinkId.all.map (.send · (.ofNat i))

theorem length_allDuties : (allDuties B).length = 2 * B + 1 := by
  simp [allDuties, SinkId.all, List.length_flatMap, Nat.mul_comm]

theorem mem_allDuties {m : Mux B L Q} {d : Duty} (due : m.due d = true) : d ∈ allDuties B := by
  cases d with
  | sleep => exact List.mem_cons_self
  | send sink buffer =>
    have inside : buffer.toNat < B := BufferPool.inside_of_holds due
    have listed : sink ∈ SinkId.all := by cases sink <;> decide
    refine List.mem_cons_of_mem _ (List.mem_flatMap.mpr ⟨buffer.toNat, List.mem_range.mpr inside, ?_⟩)
    rw [UInt16.ofNat_toNat]
    exact List.mem_map_of_mem listed

theorem pendingTasks_eq {m : Mux B L Q} {free held : List UInt16}
    (laid : TaskArena.Layout m.arena free m.arena.line held) : m.pendingTasks = m.tasks.length := by
  simp [pendingTasks, tasks, handed, TaskArena.pending_eq, laid.pendingCount]

namespace Balanced
variable {m : Mux B L Q} {taken : List UInt16} {unqueued : List Duty}

theorem nodup (balanced : m.Balanced taken unqueued) : (m.tasks.map Task.duty ++ unqueued).Nodup := by
  rw [List.nodup_iff_count_le_one]
  intro d
  rw [balanced.matched]
  exact Bool.toNat_le _

theorem mem_iff (balanced : m.Balanced taken unqueued) (d : Duty) :
    d ∈ m.tasks.map Task.duty ++ unqueued ↔ m.due d = true := by
  rw [← List.count_pos_iff, balanced.matched]
  cases m.due d <;> simp

/-- There are never more tasks than the permits of all buffers and one sleep. -/
theorem room (balanced : m.Balanced taken unqueued) : m.tasks.length + unqueued.length ≤ 2 * B + 1 := by
  have contained : m.tasks.map Task.duty ++ unqueued ⊆ allDuties B :=
    fun d member => mem_allDuties ((balanced.mem_iff d).mp member)
  have bounded := (List.subperm_of_subset balanced.nodup contained).length_le
  simpa [length_allDuties] using bounded

/-! ### Permits -/

/-- The arena stays as it is while permits and what is to be queued change together. -/
theorem rebook (balanced : m.Balanced taken unqueued) {n : Mux B L Q} {unqueued' : List Duty} (ring : n.ring = m.ring)
    (arena : n.arena = m.arena) (pool : n.pool.Sound)
    (books : ∀ d, unqueued'.count d + (m.due d).toNat = unqueued.count d + (n.due d).toNat) :
    n.Balanced taken unqueued' := by
  have same : n.tasks = m.tasks := by rw [tasks, tasks, handed, handed, ring, arena]
  refine ⟨?_, pool, ?_⟩
  · rw [ring, arena]
    exact balanced.laid
  · intro d
    have old := balanced.matched d
    have change := books d
    rw [List.count_append] at old ⊢
    rw [same]
    omega

/-- A message makes two tasks due, for which nothing was due before. -/
theorem lease (balanced : m.Balanced taken unqueued) (some_free : m.available ≠ 0) (message : Bytes) :
    ∃ leased pool, m.lease? message = some (leased, { m with pool }) ∧
      ({ m with pool } : Mux B L Q).Balanced taken (unqueued ++ SinkId.all.map (.send · leased.index)) ∧
      leased.truncated = decide (L < message.length) ∧
      (∀ sink, m.pool.holds sink leased.index = false) ∧
      (∀ sink k, pool.holds sink k = if k = leased.index then true else m.pool.holds sink k) ∧
      ∀ k, pool.content k = if k = leased.index then message.take L else m.pool.content k := by
  obtain ⟨leased, pool, taken_free, sound, -, truncated, unheld, holds, content⟩ :=
    balanced.pool.after_lease some_free message
  refine ⟨leased, pool, by simp [lease?, taken_free], balanced.rebook rfl rfl sound ?_, truncated, unheld, holds, content⟩
  intro d
  rw [List.count_append]
  cases d with
  | sleep => simp [SinkId.all, due]
  | send sink buffer =>
    simp only [due, holds]
    by_cases same : buffer = leased.index
    · subst same
      cases sink <;> simp [SinkId.all, unheld]
    · have apart : leased.index ≠ buffer := fun equal => same equal.symm
      simp [SinkId.all, same, apart]

/-- A permit is given back once its task is gone. -/
theorem release {sink : SinkId} {buffer : UInt16} (balanced : m.Balanced taken (.send sink buffer :: unqueued)) :
    ({ m with pool := (m.pool.release buffer sink).2 } : Mux B L Q).Balanced taken unqueued := by
  obtain ⟨sound, holds, -⟩ := balanced.pool.after_release buffer sink
  refine balanced.rebook rfl rfl sound ?_
  intro d
  have held : m.pool.holds sink buffer = true := (balanced.mem_iff (.send sink buffer)).mp (by simp)
  rw [List.count_cons]
  cases d with
  | sleep => simp [due]
  | send other k =>
    simp only [due, holds]
    by_cases same : other = sink ∧ k = buffer
    · obtain ⟨rfl, rfl⟩ := same
      simp [held]
    · have apart : ¬ (sink = other ∧ buffer = k) := fun equal => same ⟨equal.1.symm, equal.2.symm⟩
      simp [same, apart]

theorem wake (balanced : m.Balanced taken (.sleep :: unqueued)) :
    ({ m with sleepPending := false } : Mux B L Q).Balanced taken unqueued := by
  refine balanced.rebook rfl rfl balanced.pool ?_
  intro d
  have asleep : m.sleepPending = true := (balanced.mem_iff .sleep).mp (by simp)
  cases d with
  | sleep => simp [due, asleep]
  | send sink buffer => simp [due]

theorem doze (balanced : m.Balanced taken unqueued) (awake : m.sleepPending = false) :
    ({ m with sleepPending := true } : Mux B L Q).Balanced taken (.sleep :: unqueued) := by
  refine balanced.rebook rfl rfl balanced.pool ?_
  intro d
  cases d with
  | sleep => simp [due, awake]
  | send sink buffer => simp [due]

/-! ### Tasks -/

/-- A task that is due finds a slot and room in the ring. -/
theorem queue (sizes : Sizes B Q) {t : Task} (balanced : m.Balanced [] (t.duty :: unqueued)) :
    ∃ handle arena ring, m.alloc? t = some (handle, { m with arena }) ∧
      ({ m with arena } : Mux B L Q).push? handle = some ((), { m with arena, ring }) ∧
      ({ m with arena, ring } : Mux B L Q).Balanced [] unqueued ∧
      ({ m with arena, ring } : Mux B L Q).handed = m.handed ++ [t] ∧
      arena.pending = m.arena.pending ∧ arena.fairness = m.arena.fairness := by
  obtain ⟨free, laid⟩ := balanced.laid
  rw [List.append_nil] at laid
  have few : m.ring.toList.length + m.arena.line.length < Q := by
    have room := balanced.room
    have covers := sizes.covers
    simp only [tasks, handed, TaskArena.pending_eq, List.length_append, List.length_map, List.length_cons] at room
    omega
  cases free with
  | nil =>
    -- All slots would have tasks, which are too few.
    have all_held := laid.length_eq
    simp only [List.length_nil] at all_held
    omega
  | cons handle free =>
    obtain ⟨arena, allocated, laid', task_eq, fairness⟩ := laid.after_alloc t
    obtain ⟨ring, pushed, content⟩ := HandoffRing.toList_push sizes.fits
      (show m.ring.length < Q by rw [← HandoffRing.length_toList]; omega) handle
    have apart : handle ∉ free ++ (m.arena.line ++ m.ring.toList) := (List.nodup_cons.mp laid.distinct).1
    have line_eq : arena.line = m.arena.line := laid'.line_eq
    have others : ∀ k ∈ m.arena.line ++ m.ring.toList, arena.task k = m.arena.task k := by
      intro k member
      rw [task_eq, if_neg]
      rintro rfl
      exact apart (List.mem_append_right free member)
    have handed_eq : m.ring.toList.map arena.task = m.handed :=
      List.map_congr_left (fun k member => others k (List.mem_append_right _ member))
    have pending_eq : arena.pending = m.arena.pending := by
      rw [TaskArena.pending_eq, TaskArena.pending_eq, line_eq]
      exact List.map_congr_left (fun k member => others k (List.mem_append_left _ member))
    have queued : ({ m with arena, ring } : Mux B L Q).handed = m.handed ++ [t] := by
      simp [handed, content, handed_eq, task_eq]
    refine ⟨handle, arena, ring, ?_, ?_, ⟨⟨free, ?_⟩, balanced.pool, ?_⟩, queued, pending_eq, fairness⟩
    · simp [alloc?, allocated]
    · simp [push?, pushed]
    · rw [line_eq, content, List.append_nil]
      exact laid'.held_perm (List.perm_append_singleton handle _).symm
    · intro d
      have old := balanced.matched d
      rw [tasks, queued, pending_eq]
      simp only [tasks, List.map_append, List.count_append, List.count_cons, List.map_cons, List.map_nil, List.count_nil]
        at old ⊢
      rw [show ({ m with arena, ring } : Mux B L Q).due d = m.due d from rfl]
      omega

end Balanced

/-- The tasks in the ring are put into order one after the other. -/
theorem collect_eq {m : Mux B L Q} {handles taken free : List UInt16}
    (laid : TaskArena.Layout m.arena free m.arena.line (handles ++ taken)) (content : m.ring.toList = handles) :
    ∃ ring arena, m.collect handles.length = { m with ring, arena } ∧ ring.toList = [] ∧
      TaskArena.Layout arena free arena.line taken ∧ arena.fairness = m.arena.fairness ∧
      arena.pending = (handles.map m.arena.task).foldl (TaskArena.placed m.arena.fairness) m.arena.pending := by
  induction handles generalizing m with
  | nil => exact ⟨m.ring, m.arena, rfl, content, laid, rfl, rfl⟩
  | cons handle handles ih =>
    obtain ⟨ring, popped, rest⟩ := HandoffRing.toList_pop content
    obtain ⟨laid', task_eq, fairness⟩ := laid.after_insert (List.mem_cons_self (a := handle) (l := handles ++ taken))
    have placed_eq := laid.pending_insert (List.mem_cons_self (a := handle) (l := handles ++ taken))
    rw [List.cons_append, List.erase_cons_head, ← laid'.line_eq] at laid'
    obtain ⟨ring', arena', collected, empty, laid'', fairness', pending_eq⟩ :=
      ih (m := { m with ring, arena := m.arena.insert handle }) laid' rest
    -- An insertion charges pending tasks only, and these are still to come.
    have kept : handles.map (m.arena.insert handle).task = handles.map m.arena.task := by
      refine List.map_congr_left (fun k member => ?_)
      rw [task_eq, if_neg]
      intro passed
      exact laid.not_mem_pending (by simp [member]) (List.mem_of_mem_drop passed)
    refine ⟨ring', arena', ?_, empty, laid'', fairness'.trans fairness, ?_⟩
    · simp [collect, popped, collected]
    · rw [pending_eq, kept, fairness, placed_eq]
      rfl

namespace Balanced
variable {m : Mux B L Q} {taken : List UInt16} {unqueued : List Duty}

/-- The most urgent task is taken, and what it waited for is not done yet. -/
theorem next (balanced : m.Balanced [] []) :
    (m.tasks = [] ∧ m.next? = (none, m)) ∨
    ∃ handle t ring arena, m.next? = (some (handle, t), { m with ring, arena }) ∧
      ({ m with ring, arena } : Mux B L Q).Balanced [handle] [t.duty] ∧ ring.toList = [] ∧
      arena.fairness = m.arena.fairness ∧
      m.handed.foldl (TaskArena.placed m.arena.fairness) m.arena.pending = t :: arena.pending := by
  obtain ⟨free, laid⟩ := balanced.laid
  obtain ⟨ring, arena, collected, empty, laid', fairness, pending_eq⟩ := collect_eq laid rfl
  rw [HandoffRing.length_toList] at collected
  rcases line_eq : arena.line with _ | ⟨handle, rest⟩
  · left
    have none_pending : m.handed.foldl (TaskArena.placed m.arena.fairness) m.arena.pending = [] := by
      rw [handed, ← pending_eq, TaskArena.pending_eq, line_eq]
      rfl
    have no_tasks : m.tasks = [] := by
      have all := TaskArena.duty_placedAll m.arena.fairness m.handed m.arena.pending
      rw [none_pending] at all
      exact List.map_eq_nil_iff.mp all.nil_eq.symm
    have unlined : m.ring.toList = [] ∧ m.arena.line = [] := by
      simpa [tasks, handed, TaskArena.pending_eq] using no_tasks
    have unchanged : m.collect m.ring.length = m := by
      rw [← HandoffRing.length_toList, unlined.1]
      rfl
    rw [unlined.2] at laid
    refine ⟨no_tasks, ?_⟩
    simp [next?, unchanged, laid.no_pop]
  · right
    rw [line_eq] at laid'
    obtain ⟨arena', popped, laid'', task_eq, fairness'⟩ := laid'.after_pop
    have first : m.handed.foldl (TaskArena.placed m.arena.fairness) m.arena.pending =
        arena.task handle :: arena'.pending := by
      rw [handed, ← pending_eq, TaskArena.pending_eq, TaskArena.pending_eq, line_eq, laid''.line_eq, List.map_cons,
        funext task_eq]
    refine ⟨handle, arena.task handle, ring, arena', ?_, ⟨⟨free, ?_⟩, balanced.pool, ?_⟩, empty,
      fairness'.trans fairness, first⟩
    · simp [next?, collected, popped]
    · rw [laid''.line_eq, empty]
      exact laid''
    · intro d
      have same := TaskArena.duty_placedAll m.arena.fairness m.handed m.arena.pending
      have old := balanced.matched d
      rw [first] at same
      rw [List.append_nil, tasks, ← same.count_eq d] at old
      rw [show ({ m with ring, arena := arena' } : Mux B L Q).due d = m.due d from rfl, ← old]
      simp only [tasks, handed, empty, List.map_nil, List.nil_append, List.map_cons, List.count_append, List.count_cons,
        List.count_nil]
      omega

theorem free {handle : UInt16} (balanced : m.Balanced [handle] []) :
    ({ m with arena := m.arena.free handle } : Mux B L Q).Balanced [] [] ∧
      ({ m with arena := m.arena.free handle } : Mux B L Q).handed = m.handed ∧
      (m.arena.free handle).pending = m.arena.pending ∧ (m.arena.free handle).fairness = m.arena.fairness := by
  obtain ⟨free, laid⟩ := balanced.laid
  have member : handle ∈ m.ring.toList ++ [handle] := by simp
  obtain ⟨laid', task_eq, fairness⟩ := laid.after_free member
  have line_eq : (m.arena.free handle).line = m.arena.line := laid'.line_eq
  have apart : handle ∉ m.ring.toList := by
    intro member
    have held_distinct := (List.nodup_append.mp (List.nodup_append.mp laid.distinct).2.1).2.1
    exact (List.nodup_append.mp held_distinct).2.2 handle member handle (by simp) rfl
  have handed_eq : ({ m with arena := m.arena.free handle } : Mux B L Q).handed = m.handed := by
    rw [handed, handed, funext task_eq]
  have pending_eq : (m.arena.free handle).pending = m.arena.pending := by
    rw [TaskArena.pending_eq, TaskArena.pending_eq, line_eq, funext task_eq]
  refine ⟨⟨⟨handle :: free, ?_⟩, balanced.pool, ?_⟩, handed_eq, pending_eq, fairness⟩
  · rw [List.erase_append_right _ apart, List.erase_cons_head] at laid'
    rw [line_eq]
    exact laid'
  · intro d
    rw [tasks, handed_eq, pending_eq]
    exact balanced.matched d

/-! ### Settings -/

theorem line_setFairness (balanced : m.Balanced taken unqueued) (fairness : Fairness) :
    (m.setFairness fairness).arena.line = m.arena.line :=
  (balanced.laid.choose_spec.with_fairness fairness).line_eq

theorem pending_setFairness (balanced : m.Balanced taken unqueued) (fairness : Fairness) :
    (m.setFairness fairness).arena.pending = m.arena.pending := by
  rw [TaskArena.pending_eq, TaskArena.pending_eq, balanced.line_setFairness]
  rfl

theorem setFairness (balanced : m.Balanced taken unqueued) (fairness : Fairness) :
    (m.setFairness fairness).Balanced taken unqueued := by
  obtain ⟨free, laid⟩ := balanced.laid
  refine ⟨⟨free, ?_⟩, balanced.pool, ?_⟩
  · rw [balanced.line_setFairness]
    exact laid.with_fairness fairness
  · intro d
    rw [tasks, balanced.pending_setFairness]
    exact balanced.matched d

theorem configure (balanced : m.Balanced taken unqueued) (s : MuxSettings) :
    (m.configure s).Balanced taken unqueued :=
  (balanced.setFairness s.fairness).rebook rfl rfl balanced.pool (fun _ => rfl)

theorem takeSeq (balanced : m.Balanced taken unqueued) : m.takeSeq.2.Balanced taken unqueued :=
  balanced.rebook rfl rfl balanced.pool (fun _ => rfl)

end Balanced

theorem layout_ofSettings (sizes : Sizes B Q) (s : MuxSettings) :
    TaskArena.Layout (ofSettings s : Mux B L Q).arena (TaskArena.allSlots Q) [] [] :=
  TaskArena.layout_ofFairness (by have := sizes.covers; omega) sizes.small s.fairness

theorem tasks_ofSettings (sizes : Sizes B Q) (s : MuxSettings) : (ofSettings s : Mux B L Q).tasks = [] := by
  have line_eq : (ofSettings s : Mux B L Q).arena.line = [] := (layout_ofSettings sizes s).line_eq
  have ring_eq : (ofSettings s : Mux B L Q).ring.toList = [] := HandoffRing.toList_empty
  simp [tasks, handed, TaskArena.pending_eq, line_eq, ring_eq]

theorem balanced_ofSettings (sizes : Sizes B Q) (s : MuxSettings) : (ofSettings s : Mux B L Q).Balanced [] [] := by
  have small := sizes.small
  have covers := sizes.covers
  have laid : TaskArena.Layout (ofSettings s : Mux B L Q).arena (TaskArena.allSlots Q) [] [] := layout_ofSettings sizes s
  have ring_eq : (ofSettings s : Mux B L Q).ring.toList = [] := HandoffRing.toList_empty
  refine ⟨⟨TaskArena.allSlots Q, ?_⟩, BufferPool.sound_empty (by omega), ?_⟩
  · rw [laid.line_eq, ring_eq]
    exact laid
  · intro d
    rw [tasks_ofSettings sizes]
    cases d with
    | sleep => rfl
    | send sink buffer =>
      have unheld : (ofSettings s : Mux B L Q).pool.holds sink buffer = false := BufferPool.holds_empty sink buffer
      rw [due, unheld]
      rfl

end Mux
end AirMonitor
