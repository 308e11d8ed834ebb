import AirMonitor.Proofs.Output.Balance
import AirMonitor.Proofs.Output.Requests

/-!
Serving a request is a sequence of steps: each runs one task, accepts one message,
accepts a sleep or changes the settings, and keeps the books (`Output.answer_steps`).
What every step keeps holds after every run (`Output.Steps.keep`).
-/
namespace AirMonitor

/-- A wait that ends does so in a state that its hooks led to. -/
theorem wait_reaches {α β : Type} {P : α → Prop} {attempt : α → Option (β × α)} {hooks : List (α → α)} {s : α}
    (start : P s) (keeps : ∀ hook ∈ hooks, ∀ s, attempt s = none → P s → P (hook s)) :
    ∃ t, P t ∧ ((attempt t = none ∧ wait attempt hooks s = ⟨none, t, []⟩) ∨
      ∃ b u unused, attempt t = some (b, u) ∧ wait attempt hooks s = ⟨some b, u, unused⟩) := by
  induction hooks generalizing s with
  | nil =>
    refine ⟨s, start, ?_⟩
    cases tried : attempt s with
    | none => exact .inl ⟨rfl, by simp [wait, tried]⟩
    | some result => exact .inr ⟨result.1, result.2, [], rfl, wait_of_attempt tried []⟩
  | cons hook hooks ih =>
    cases tried : attempt s with
    | none =>
      have later := ih (keeps hook (by simp) s tried start) (fun other member => keeps other (by simp [member]))
      simpa [wait, tried] using later
    | some result =>
      exact ⟨s, start, .inr ⟨result.1, result.2, hook :: hooks, tried, wait_of_attempt tried _⟩⟩

namespace Output
variable {B L Q : Nat} {τ : Type} {o p q : Output B L Q τ}

/-! ### Queueing -/

/-- A task that is due is queued without waiting, whatever the hooks are. -/
theorem enqueue_eq (sizes : Mux.Sizes B Q) {t : Task} {unqueued : List Duty}
    (balanced : o.mux.Balanced [] (t.duty :: unqueued)) :
    ∃ arena ring,
      (∀ hooks, o.enqueue hooks t = ⟨some (), { o with mux := { o.mux with arena, ring } }, hooks⟩) ∧
      ({ o.mux with arena, ring } : Mux B L Q).Balanced [] unqueued ∧
      ({ o.mux with arena, ring } : Mux B L Q).handed = o.mux.handed ++ [t] ∧
      arena.pending = o.mux.arena.pending ∧ arena.fairness = o.mux.arena.fairness := by
  obtain ⟨handle, arena, ring, allocated, pushed, balanced', handed, pending, fairness⟩ := balanced.queue sizes
  have slot : attempt (Mux.alloc? t) o = some (handle, { o with mux := { o.mux with arena } }) := by
    simp [attempt, allocated]
  have placed : attempt (Mux.push? handle) { o with mux := { o.mux with arena } } =
      some ((), { o with mux := { o.mux with arena, ring } }) := by
    simp [attempt, pushed]
  refine ⟨arena, ring, ?_, balanced', handed, pending, fairness⟩
  intro hooks
  simp only [enqueue, wait_of_attempt slot, wait_of_attempt placed]

theorem enqueueFor_eq (sizes : Mux.Sizes B Q) (buffer : UInt16) (seq : UInt32) {sinks : List SinkId}
    {unqueued : List Duty} (balanced : o.mux.Balanced [] (sinks.map (.send · buffer) ++ unqueued)) :
    ∃ arena ring,
      (∀ hooks, o.enqueueFor hooks buffer seq sinks =
        ⟨some (), { o with mux := { o.mux with arena, ring } }, hooks⟩) ∧
      ({ o.mux with arena, ring } : Mux B L Q).Balanced [] unqueued ∧
      ({ o.mux with arena, ring } : Mux B L Q).handed = o.mux.handed ++
        sinks.map (fun sink => { action := .send sink buffer, priority := o.mux.priorityOf sink, seq }) ∧
      arena.pending = o.mux.arena.pending ∧ arena.fairness = o.mux.arena.fairness := by
  induction sinks generalizing o with
  | nil => exact ⟨o.mux.arena, o.mux.ring, fun _ => rfl, balanced, by simp [Mux.handed], rfl, rfl⟩
  | cons sink sinks ih =>
    obtain ⟨arena, ring, queued, balanced', handed, pending, fairness⟩ :=
      enqueue_eq (t := { action := .send sink buffer, priority := o.mux.priorityOf sink, seq }) sizes balanced
    obtain ⟨arena', ring', queued', balanced'', handed', pending', fairness'⟩ :=
      ih (o := { o with mux := { o.mux with arena, ring } }) balanced'
    refine ⟨arena', ring', ?_, balanced'', ?_, pending'.trans pending, fairness'.trans fairness⟩
    · intro hooks
      simp only [enqueueFor, queued, queued']
    · refine handed'.trans ?_
      rw [handed, List.append_assoc]
      rfl

theorem dispatch_eq (sizes : Mux.Sizes B Q) (leased : Leased)
    (balanced : o.mux.Balanced [] (SinkId.all.map (.send · leased.index))) :
    ∃ arena ring,
      (∀ hooks, o.dispatch hooks leased =
        ⟨some ⟨leased.index, o.mux.nextSeq, leased.truncated⟩,
          { o with mux := { o.mux with arena, ring, nextSeq := o.mux.nextSeq + 1 } }, hooks⟩) ∧
      ({ o.mux with arena, ring, nextSeq := o.mux.nextSeq + 1 } : Mux B L Q).Balanced [] [] ∧
      ({ o.mux with arena, ring } : Mux B L Q).handed = o.mux.handed ++
        SinkId.all.map (fun sink =>
          { action := .send sink leased.index, priority := o.mux.priorityOf sink, seq := o.mux.nextSeq }) ∧
      arena.pending = o.mux.arena.pending ∧ arena.fairness = o.mux.arena.fairness := by
  have numbered : o.mux.takeSeq.2.Balanced [] (SinkId.all.map (.send · leased.index) ++ []) := balanced.takeSeq
  obtain ⟨arena, ring, queued, balanced', handed, pending, fairness⟩ :=
    enqueueFor_eq (o := { o with mux := o.mux.takeSeq.2 }) sizes leased.index o.mux.nextSeq numbered
  refine ⟨arena, ring, ?_, balanced', handed, pending, fairness⟩
  intro hooks
  simp only [dispatch, Mux.takeSeq] at queued ⊢
  rw [queued]
  rfl

theorem no_lease (none_free : o.mux.available = 0) (message : Bytes) : attempt (Mux.lease? message) o = none := by
  simp [attempt, Mux.lease?, BufferPool.no_lease none_free message]

theorem balanced_start (sizes : Mux.Sizes B Q) (settings : MuxSettings) (outlets : τ) :
    (start settings outlets : Output B L Q τ).mux.Balanced [] [] := Mux.balanced_ofSettings sizes settings

variable [Outlets τ]

/-! ### Steps -/

/-- The most urgent task was run, and what it waited for was done. -/
structure Ran (o : Output B L Q τ) (e : Executed) (p : Output B L Q τ) : Prop where
  executed : p.executed = e :: o.executed
  order : o.mux.handed.foldl (TaskArena.placed o.mux.arena.fairness) o.mux.arena.pending =
    e.task :: p.mux.arena.pending
  handed : p.mux.handed = []
  settings : p.mux.settings = o.mux.settings
  due : o.mux.due e.task.duty = true
  sent : ∀ sink buffer, e.task.action = .send sink buffer →
    p.mux.pool = (o.mux.pool.release buffer sink).2 ∧ p.mux.sleepPending = o.mux.sleepPending ∧
      p.outlets = (Outlets.send sink (o.mux.pool.content buffer) o.outlets).2
  slept : ∀ deadline, e.task.action = .sleepUntil deadline →
    p.mux.pool = o.mux.pool ∧ p.mux.sleepPending = false ∧ p.outlets = Outlets.sleepUntil deadline o.outlets

/-- A message was put into a free buffer, and its tasks were handed over. -/
structure Accepted (o : Output B L Q τ) (message : Bytes) (e : Emitted) (p : Output B L Q τ) : Prop where
  executed : p.executed = o.executed
  outlets : p.outlets = o.outlets
  settings : p.mux.settings = o.mux.settings
  sleepPending : p.mux.sleepPending = o.mux.sleepPending
  truncated : e.truncated = decide (L < message.length)
  handed : p.mux.handed = o.mux.handed ++
    SinkId.all.map fun sink => { action := .send sink e.buffer, priority := o.mux.priorityOf sink, seq := e.seq }
  pending : p.mux.arena.pending = o.mux.arena.pending
  unheld : ∀ sink, o.mux.pool.holds sink e.buffer = false
  holds : ∀ sink k, p.mux.pool.holds sink k = if k = e.buffer then true else o.mux.pool.holds sink k
  content : ∀ k, p.mux.pool.content k = if k = e.buffer then message.take L else o.mux.pool.content k

/-- A sleep was handed over. -/
structure Dozed (o : Output B L Q τ) (deadline : Instant) (p : Output B L Q τ) : Prop where
  executed : p.executed = o.executed
  outlets : p.outlets = o.outlets
  settings : p.mux.settings = o.mux.settings
  pool : p.mux.pool = o.mux.pool
  awake : o.mux.sleepPending = false
  asleep : p.mux.sleepPending = true
  handed : ∃ seq, p.mux.handed = o.mux.handed ++
    [{ action := .sleepUntil deadline, priority := o.mux.sleepPriority, seq }]
  pending : p.mux.arena.pending = o.mux.arena.pending

/-- Only the settings were changed. -/
structure Settled (o : Output B L Q τ) (s : MuxSettings) (p : Output B L Q τ) : Prop where
  executed : p.executed = o.executed
  outlets : p.outlets = o.outlets
  settings : p.mux.settings = s
  pool : p.mux.pool = o.mux.pool
  sleepPending : p.mux.sleepPending = o.mux.sleepPending
  handed : p.mux.handed = o.mux.handed
  pending : p.mux.arena.pending = o.mux.arena.pending

def Event.Effect (event : Event) (o p : Output B L Q τ) : Prop :=
  match event with
  | .accepted message e => Accepted o message e p
  | .ran e => Ran o e p
  | .dozed deadline => Dozed o deadline p
  | .settled s => Settled o s p

/-- One event, and the books before and after it. -/
structure Step (o : Output B L Q τ) (event : Event) (p : Output B L Q τ) : Prop where
  before : o.mux.Balanced [] []
  after : p.mux.Balanced [] []
  effect : event.Effect o p

inductive Steps : Output B L Q τ → List Event → Output B L Q τ → Prop
  | done (o : Output B L Q τ) : Steps o [] o
  | more {o p q : Output B L Q τ} {event : Event} {events : List Event} (step : Step o event p)
      (rest : Steps p events q) : Steps o (event :: events) q

theorem Step.single {event : Event} (step : Step o event p) : Steps o [event] p := .more step (.done p)

theorem Steps.append {first second : List Event} (steps : Steps o first p) (others : Steps p second q) :
    Steps o (first ++ second) q := by
  induction steps with
  | done => exact others
  | more step _ ih => exact .more step (ih others)

/-- An invariant of every event of a kind holds after any of them. -/
theorem Steps.invariant {P : Output B L Q τ → Prop} {A : Event → Prop}
    (keeps : ∀ {o p : Output B L Q τ} {event : Event}, A event → Step o event p → P o → P p)
    {events : List Event} (steps : Steps o events p) (all : ∀ event ∈ events, A event) (holds : P o) : P p := by
  induction steps with
  | done => exact holds
  | more step _ ih =>
    exact ih (fun event member => all event (List.mem_cons_of_mem _ member)) (keeps (all _ List.mem_cons_self) step holds)

/-- What every event of a kind keeps holds after any of them. -/
theorem Steps.keepWhere {σ : Type} {P : Output B L Q τ → σ → Prop} {note : Event → σ → σ} {A : Event → Prop}
    (keeps : ∀ {o p : Output B L Q τ} {event : Event} {s : σ}, A event → Step o event p → P o s → P p (note event s))
    {events : List Event} (steps : Steps o events p) (all : ∀ event ∈ events, A event) {s : σ} (holds : P o s) :
    P p (events.foldl (fun s event => note event s) s) := by
  induction steps generalizing s with
  | done => exact holds
  | more step _ ih =>
    exact ih (fun event member => all event (List.mem_cons_of_mem _ member)) (keeps (all _ List.mem_cons_self) step holds)

/-- What every event keeps holds after all of them. -/
theorem Steps.keep {σ : Type} {P : Output B L Q τ → σ → Prop} {note : Event → σ → σ}
    (keeps : ∀ {o p : Output B L Q τ} {event : Event} {s : σ}, Step o event p → P o s → P p (note event s))
    {events : List Event} (steps : Steps o events p) {s : σ} (holds : P o s) :
    P p (events.foldl (fun s event => note event s) s) :=
  steps.keepWhere (A := fun _ => True) (fun _ => keeps) (fun _ _ => trivial) holds

/-! ### Running tasks -/

/-- The task that was taken is run, and what it waited for is done. -/
theorem balanced_run {handle : UInt16} {t : Task} (balanced : o.mux.Balanced [handle] [t.duty]) :
    ∃ outcome pool sleepPending outlets,
      o.run t = (outcome, { o with mux := { o.mux with pool, sleepPending }, outlets }) ∧
      ({ o.mux with pool, sleepPending } : Mux B L Q).Balanced [handle] [] ∧
      (∀ sink buffer, t.action = .send sink buffer →
        pool = (o.mux.pool.release buffer sink).2 ∧ sleepPending = o.mux.sleepPending ∧
          outlets = (Outlets.send sink (o.mux.pool.content buffer) o.outlets).2) ∧
      ∀ deadline, t.action = .sleepUntil deadline →
        pool = o.mux.pool ∧ sleepPending = false ∧ outlets = Outlets.sleepUntil deadline o.outlets := by
  cases action : t.action with
  | send sink buffer =>
    have duty : t.duty = .send sink buffer := by simp [Task.duty, action]
    rw [duty] at balanced
    have held : o.mux.pool.holds sink buffer = true := (balanced.mem_iff (.send sink buffer)).mp (by simp)
    have payload : o.mux.pool.payload? buffer sink = some (o.mux.pool.content buffer) := by
      rw [BufferPool.payload?_eq, if_pos held]
    obtain ⟨outcome, ran⟩ : ∃ outcome, o.run t = (outcome,
        { o with
          mux := { o.mux with pool := (o.mux.pool.release buffer sink).2 },
          outlets := (Outlets.send sink (o.mux.pool.content buffer) o.outlets).2 }) := by
      simp only [run, action, payload]
      exact ⟨_, rfl⟩
    refine ⟨outcome, (o.mux.pool.release buffer sink).2, o.mux.sleepPending,
      (Outlets.send sink (o.mux.pool.content buffer) o.outlets).2, ran, balanced.release, ?_, ?_⟩
    · rintro other k ⟨⟩
      exact ⟨rfl, rfl, rfl⟩
    · rintro deadline ⟨⟩
  | sleepUntil deadline =>
    have duty : t.duty = .sleep := by simp [Task.duty, action]
    rw [duty] at balanced
    refine ⟨.slept, o.mux.pool, false, Outlets.sleepUntil deadline o.outlets, ?_, balanced.wake, ?_, ?_⟩
    · simp only [run, action]
    · rintro sink buffer ⟨⟩
    · rintro other ⟨⟩
      exact ⟨rfl, rfl, rfl⟩

/-- A task is run if one waits, and else nothing changes. -/
theorem process_step (balanced : o.mux.Balanced [] []) :
    (o.mux.tasks = [] ∧ o.process = (none, o)) ∨
      ∃ e p, o.process = (some e, p) ∧ Step o (.ran e) p := by
  rcases balanced.next with ⟨no_tasks, next⟩ | ⟨handle, t, ring, arena, next, taken, empty, fairness, order⟩
  · left
    refine ⟨no_tasks, ?_⟩
    simp [process, next]
  · right
    obtain ⟨outcome, pool, sleepPending, outlets, ran, done, sent, slept⟩ :=
      balanced_run (o := { o with mux := { o.mux with ring, arena } }) taken
    obtain ⟨freed, handed, pending, fairness'⟩ := done.free
    obtain ⟨p, processed, p_eq⟩ : ∃ p, o.process = (some ⟨t, outcome⟩, p) ∧ p =
        { mux := { o.mux with ring, arena := arena.free handle, pool, sleepPending },
          outlets, executed := ⟨t, outcome⟩ :: o.executed } := by
      simp only [process, next, ran]
      exact ⟨_, rfl, rfl⟩
    subst p_eq
    refine ⟨⟨t, outcome⟩, _, processed, balanced, freed, ?_⟩
    have settings : ({ o.mux with ring, arena := arena.free handle, pool, sleepPending } : Mux B L Q).settings =
        o.mux.settings := by
      rw [Mux.settings, Mux.settings, fairness'.trans fairness]
    have due : o.mux.due t.duty = true := (taken.mem_iff t.duty).mp (by simp)
    refine ⟨rfl, ?_, ?_, settings, due, sent, slept⟩
    · rw [order, pending]
    · exact handed.trans (by simp [Mux.handed, empty])

structure Served (o : Output B L Q τ) (rans : List Executed) (p : Output B L Q τ) : Prop where
  steps : Steps o (rans.map .ran) p
  balanced : p.mux.Balanced [] []
  executed : p.executed = rans.reverse ++ o.executed

theorem served_refl (balanced : o.mux.Balanced [] []) : Served o [] o := ⟨.done o, balanced, rfl⟩

theorem Served.trans {first second : List Executed} (served : Served o first p) (later : Served p second q) :
    Served o (first ++ second) q where
  steps := by
    rw [List.map_append]
    exact served.steps.append later.steps
  balanced := later.balanced
  executed := by rw [later.executed, served.executed, List.reverse_append, List.append_assoc]

theorem Served.ranSince_eq {rans : List Executed} (served : Served o rans p) : ranSince o p = rans := by
  simp [ranSince, served.executed]

theorem Step.served {e : Executed} (step : Step o (.ran e) p) : Served o [e] p :=
  ⟨step.single, step.after, (show Ran o e p from step.effect).executed⟩

theorem Ran.length_tasks {e : Executed} (ran : Ran o e p) : o.mux.tasks.length = p.mux.tasks.length + 1 := by
  have lengths := (TaskArena.duty_placedAll o.mux.arena.fairness o.mux.handed o.mux.arena.pending).length_eq
  rw [ran.order] at lengths
  simp only [List.length_map, List.length_cons, List.length_append] at lengths
  simp [Mux.tasks, ran.handed]
  omega

/-- The task that is run and those left waited before, bypasses apart. -/
theorem Ran.original {e : Executed} (ran : Ran o e p) {t : Task} (member : t ∈ e.task :: p.mux.tasks) :
    ∃ s ∈ o.mux.tasks, s.original = t.original := by
  have same := TaskArena.original_placedAll o.mux.arena.fairness o.mux.handed o.mux.arena.pending
  rw [ran.order, ← List.map_append] at same
  rw [Mux.tasks, ran.handed] at member
  exact List.mem_map.mp (same.mem_iff.mp (List.mem_map_of_mem member))

theorem Ran.origin {e : Executed} (ran : Ran o e p) {t : Task} (member : t ∈ e.task :: p.mux.tasks) :
    ∃ s ∈ o.mux.tasks, s.action = t.action ∧ s.seq = t.seq := by
  obtain ⟨s, old, original⟩ := ran.original member
  refine ⟨s, old, ?_⟩
  show s.original.action = t.original.action ∧ s.original.seq = t.original.seq
  rw [original]
  exact ⟨rfl, rfl⟩

omit [Outlets τ] in
/-- A task that waits to send after a message was accepted did so before, or sends that message. -/
theorem Accepted.origin {message : Bytes} {e : Emitted} (accepted : Accepted o message e p) {t : Task}
    (member : t ∈ p.mux.tasks) {sink : SinkId} {k : UInt16} (action : t.action = .send sink k) :
    t ∈ o.mux.tasks ∨ k = e.buffer ∧ t.seq = e.seq := by
  rw [Mux.tasks, accepted.handed, accepted.pending] at member
  simp only [List.mem_append, List.mem_map] at member
  rcases member with (handed | ⟨other, -, rfl⟩) | pending
  · exact .inl (List.mem_append_left _ handed)
  · obtain ⟨rfl, rfl⟩ := Action.send.inj action
    exact .inr ⟨rfl, rfl⟩
  · exact .inl (List.mem_append_right _ pending)

/-- As many tasks are run as asked for, or all there are. -/
theorem processUpTo_served (balanced : o.mux.Balanced [] []) (limit : Nat) :
    ∃ rans, Served o rans (o.processUpTo limit).2 ∧ (o.processUpTo limit).1 = rans.length ∧
      rans.length = min limit o.mux.tasks.length ∧
      (o.processUpTo limit).2.mux.tasks.length = o.mux.tasks.length - limit := by
  induction limit generalizing o with
  | zero => exact ⟨[], served_refl balanced, rfl, by simp, rfl⟩
  | succ limit ih =>
    rcases process_step balanced with ⟨no_tasks, processed⟩ | ⟨e, p, processed, step⟩
    · refine ⟨[], ?_, ?_, ?_, ?_⟩
      · simp only [processUpTo, processed]
        exact served_refl balanced
      · simp [processUpTo, processed]
      · simp [no_tasks]
      · simp [processUpTo, processed, no_tasks]
    · obtain ⟨rans, served, count, length, left⟩ := ih step.after
      have one_less : o.mux.tasks.length = p.mux.tasks.length + 1 := Ran.length_tasks step.effect
      refine ⟨e :: rans, ?_, ?_, ?_, ?_⟩
      · simp only [processUpTo, processed]
        exact step.served.trans served
      · simp [processUpTo, processed, count]
      · simp only [List.length_cons]
        omega
      · simp only [processUpTo, processed]
        omega

/-! ### Producing -/

/-- With a free buffer a message is accepted, and waits for nothing. -/
theorem accepted_step (sizes : Mux.Sizes B Q) (balanced : o.mux.Balanced [] []) (some_free : o.mux.available ≠ 0)
    (message : Bytes) :
    ∃ leased leasing e p, attempt (Mux.lease? message) o = some (leased, leasing) ∧
      (∀ hooks, leasing.dispatch hooks leased = ⟨some e, p, hooks⟩) ∧ Step o (.accepted message e) p := by
  obtain ⟨leased, pool, lease, booked, truncated, unheld, holds, content⟩ := balanced.lease some_free message
  set leasing : Output B L Q τ := { o with mux := { o.mux with pool } } with leasing_eq
  obtain ⟨arena, ring, dispatched, balanced', handed, pending, fairness⟩ := dispatch_eq (o := leasing) sizes leased booked
  have settings : ({ leasing.mux with arena, ring, nextSeq := leasing.mux.nextSeq + 1 } : Mux B L Q).settings =
      o.mux.settings := by
    rw [Mux.settings, Mux.settings, fairness]
  refine ⟨leased, leasing, _, _, by simp [attempt, lease, leasing_eq], dispatched, balanced, balanced', ?_⟩
  exact ⟨rfl, rfl, settings, rfl, truncated, handed, pending, unheld, holds, content⟩

theorem dozed_step (sizes : Mux.Sizes B Q) (balanced : o.mux.Balanced [] []) (awake : o.mux.sleepPending = false)
    (deadline : Instant) : ∃ p, o.requestSleep deadline = ⟨some true, p, []⟩ ∧ Step o (.dozed deadline) p := by
  have numbered : ({ o.mux with sleepPending := true } : Mux B L Q).takeSeq.2.Balanced [] [.sleep] :=
    (balanced.doze awake).takeSeq
  obtain ⟨arena, ring, queued, balanced', handed, pending, fairness⟩ :=
    enqueue_eq (o := { o with mux := ({ o.mux with sleepPending := true } : Mux B L Q).takeSeq.2 })
      (t := { action := .sleepUntil deadline, priority := o.mux.sleepPriority, seq := o.mux.nextSeq }) sizes numbered
  obtain ⟨p, asked, p_eq⟩ : ∃ p, o.requestSleep deadline = ⟨some true, p, []⟩ ∧ p =
      { o with mux := { o.mux with sleepPending := true, nextSeq := o.mux.nextSeq + 1, arena, ring } } := by
    simp only [requestSleep, awake, Bool.false_eq_true, if_false, Mux.takeSeq] at queued ⊢
    rw [queued]
    exact ⟨_, rfl, rfl⟩
  subst p_eq
  have settings : ({ o.mux with sleepPending := true, nextSeq := o.mux.nextSeq + 1, arena, ring } : Mux B L Q).settings =
      o.mux.settings := by
    rw [Mux.settings, Mux.settings, fairness]
    rfl
  exact ⟨_, asked, balanced, balanced', rfl, rfl, settings, rfl, awake, rfl, ⟨_, handed⟩, pending⟩

theorem settled_step (balanced : o.mux.Balanced [] []) (s : MuxSettings) : Step o (.settled s) (o.configure s) :=
  ⟨balanced, balanced.configure s, rfl, rfl, rfl, rfl, rfl, rfl, balanced.pending_setFairness s.fairness⟩

theorem refaired_step (balanced : o.mux.Balanced [] []) (fairness : Fairness) :
    Step o (.settled { o.mux.settings with fairness }) (o.setFairness fairness) :=
  ⟨balanced, balanced.setFairness fairness, rfl, rfl, rfl, rfl, rfl, rfl, balanced.pending_setFairness fairness⟩

/-! ### Runs -/

theorem tryEmit_step (sizes : Mux.Sizes B Q) (balanced : o.mux.Balanced [] []) (message : Bytes) :
    (o.mux.available = 0 ∧ o.tryEmit message = ⟨some (.error .poolExhausted), o, []⟩) ∨
      ∃ e p, o.mux.available ≠ 0 ∧ o.tryEmit message = ⟨some (.ok e), p, []⟩ ∧ Step o (.accepted message e) p := by
  by_cases none_free : o.mux.available = 0
  · left
    exact ⟨none_free, by simp [tryEmit, no_lease none_free]⟩
  · right
    obtain ⟨leased, leasing, e, p, found, dispatched, step⟩ := accepted_step sizes balanced none_free message
    exact ⟨e, p, none_free, by simp [tryEmit, found, dispatched], step⟩

/-- A message that waits for a buffer runs tasks, and is accepted once there is one. -/
theorem emit_steps (sizes : Mux.Sizes B Q) (balanced : o.mux.Balanced [] []) (relax : List Nat) (message : Bytes) :
    ∃ rans p, Served o rans p ∧
      ((p.mux.available = 0 ∧ o.answer (.emit relax message) = (.waiting, p)) ∨
        ∃ e q, p.mux.available ≠ 0 ∧ o.answer (.emit relax message) = (.emitted e, q) ∧
          Step p (.accepted message e) q) := by
  have keeps : ∀ hook ∈ (relaxing relax : List (Hook B L Q τ)), ∀ p, attempt (Mux.lease? message) p = none →
      (∃ rans, Served o rans p) → ∃ rans, Served o rans (hook p) := by
    intro hook member p _ reached
    obtain ⟨rans, served⟩ := reached
    obtain ⟨count, -, rfl⟩ := List.mem_map.mp member
    obtain ⟨more, served', -⟩ := processUpTo_served served.balanced count
    exact ⟨rans ++ more, served.trans served'⟩
  -- The books are kept all through the wait, so the message finds its slots whenever it ends.
  obtain ⟨p, ⟨rans, served⟩, ended⟩ := wait_reaches ⟨[], served_refl balanced⟩ keeps
  refine ⟨rans, p, served, ?_⟩
  by_cases none_free : p.mux.available = 0
  · left
    rw [no_lease none_free] at ended
    rcases ended with ⟨-, waited⟩ | ⟨_, _, _, found, -⟩
    · exact ⟨none_free, by simp [answer, emitWith, waited]⟩
    · simp at found
  · right
    obtain ⟨leased, leasing, e, q, found, dispatched, step⟩ := accepted_step sizes served.balanced none_free message
    rw [found] at ended
    rcases ended with ⟨absent, -⟩ | ⟨b, u, unused, same, waited⟩
    · simp at absent
    · obtain ⟨rfl, rfl⟩ := Prod.mk.inj (Option.some.inj same)
      exact ⟨e, q, none_free, by simp [answer, emitWith, waited, dispatched], step⟩

/-- Serving a request takes one step after the other. -/
theorem answer_steps (sizes : Mux.Sizes B Q) (balanced : o.mux.Balanced [] []) (request : Request) :
    Steps o (o.events request) (o.answer request).2 ∧ (o.answer request).2.mux.Balanced [] [] := by
  cases request with
  | emit relax message =>
    obtain ⟨rans, p, served, ⟨-, answered⟩ | ⟨e, q, -, answered, step⟩⟩ := emit_steps sizes balanced relax message
    · simp only [events, answered, served.ranSince_eq, List.append_nil]
      exact ⟨served.steps, served.balanced⟩
    · have since : ranSince o q = rans := by
        have same : q.executed = p.executed := (show Accepted p message e q from step.effect).executed
        simp [ranSince, same, served.executed]
      simp only [events, answered, since]
      exact ⟨served.steps.append step.single, step.after⟩
  | tryEmit message =>
    rcases tryEmit_step sizes balanced message with ⟨-, tried⟩ | ⟨e, p, -, tried, step⟩
    · simp only [events, answer, tried, Option.elim_some, ranSince_self rfl, List.map_nil, List.append_nil]
      exact ⟨.done o, balanced⟩
    · have same : p.executed = o.executed := (show Accepted o message e p from step.effect).executed
      simp only [events, answer, tried, Option.elim_some, ranSince_self same, List.map_nil, List.nil_append]
      exact ⟨step.single, step.after⟩
  | requestSleep deadline =>
    cases pending : o.mux.sleepPending with
    | true =>
      have refused : o.requestSleep deadline = ⟨some false, o, []⟩ := by simp [requestSleep, pending]
      simp only [events, answer, refused, Option.elim_some, ranSince_self rfl, List.map_nil, List.append_nil]
      exact ⟨.done o, balanced⟩
    | false =>
      obtain ⟨p, asked, step⟩ := dozed_step sizes balanced pending deadline
      have same : p.executed = o.executed := (show Dozed o deadline p from step.effect).executed
      simp only [events, answer, asked, Option.elim_some, ranSince_self same, List.map_nil, List.nil_append]
      exact ⟨step.single, step.after⟩
  | configure s =>
    have step := settled_step balanced s
    simp only [events, answer, ranSince_self (show (o.configure s).executed = o.executed from rfl), List.map_nil,
      List.nil_append]
    exact ⟨step.single, step.after⟩
  | setFairness fairness =>
    have step := refaired_step balanced fairness
    simp only [events, answer, ranSince_self (show (o.setFairness fairness).executed = o.executed from rfl),
      List.map_nil, List.nil_append]
    exact ⟨step.single, step.after⟩
  | process =>
    rcases process_step balanced with ⟨-, processed⟩ | ⟨e, p, processed, step⟩
    · simp only [events, answer, processed, ranSince_self rfl, List.map_nil, List.append_nil]
      exact ⟨.done o, balanced⟩
    · simp only [events, answer, processed, step.served.ranSince_eq, List.append_nil]
      exact ⟨step.single, step.after⟩
  | processAll =>
    obtain ⟨rans, served, -⟩ := processUpTo_served balanced o.mux.pendingTasks
    have since : ranSince o (o.processAll).2 = rans := served.ranSince_eq
    simp only [events, answer, since, List.append_nil]
    exact ⟨served.steps, served.balanced⟩

theorem answerAll_steps (sizes : Mux.Sizes B Q) (balanced : o.mux.Balanced [] []) (requests : List Request) :
    Steps o (history requests o) (answerAll requests o) ∧ (answerAll requests o).mux.Balanced [] [] := by
  induction requests generalizing o with
  | nil => exact ⟨.done o, balanced⟩
  | cons request requests ih =>
    obtain ⟨steps, balanced'⟩ := answer_steps sizes balanced request
    obtain ⟨others, balanced''⟩ := ih balanced'
    exact ⟨steps.append others, balanced''⟩

end Output
end AirMonitor
