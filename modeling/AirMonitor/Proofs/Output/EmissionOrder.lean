import AirMonitor.Proofs.Output.Deliveries
import AirMonitor.Proofs.Output.ExecutionOrder

/-!
A sink is sent the messages in the order in which they were accepted, as long as the
pending tasks stay graded: sorted by urgency behind the last saturated one. Insertion
relies on that and keeps it, and so does a fairness that is tightened at any time or
changed when no task is pending (`keepsAll_of_neverLoosens`). A fairness that saturates fewer
tasks may break it, and then a new task goes ahead of others as urgent as it
(`overtaken_after_loosening`).
-/
namespace AirMonitor

/-- A fairness under which every task is saturated that is so under another one. -/
def Fairness.AtLeastAs : Fairness → Fairness → Prop
  | _, .strict => True
  | .strict, .bounded _ => False
  | .bounded limit, .bounded other => limit ≤ other

instance : (f g : Fairness) → Decidable (f.AtLeastAs g)
  | .strict, .strict | .bounded _, .strict => inferInstanceAs (Decidable True)
  | .strict, .bounded _ => inferInstanceAs (Decidable False)
  | .bounded limit, .bounded other => inferInstanceAs (Decidable (limit ≤ other))

theorem Fairness.AtLeastAs.isSaturated {f g : Fairness} (tighter : g.AtLeastAs f) {t : Task}
    (saturated : t.isSaturated f = true) : t.isSaturated g = true := by
  cases f with
  | strict => cases saturated
  | bounded other =>
    cases g with
    | strict => cases tighter
    | bounded limit =>
      rw [Task.isSaturated, Bool.and_eq_true, decide_eq_true_iff] at saturated ⊢
      exact ⟨saturated.1, UInt8.le_trans tighter saturated.2⟩

namespace TaskArena
variable {f g : Fairness} {t : Task} {ts : List Task}

/-- Behind the last saturated task no task is more urgent than one ahead of it. -/
def Graded (f : Fairness) : List Task → Prop
  | [] => True
  | t :: ts => Graded f ts ∧ ((∀ u ∈ t :: ts, u.isSaturated f = false) → ∀ u ∈ ts, t.priority ≤ u.priority)

instance decidableGraded (f : Fairness) : (ts : List Task) → Decidable (Graded f ts)
  | [] => isTrue trivial
  | _ :: ts =>
    have := decidableGraded f ts
    inferInstanceAs (Decidable (_ ∧ _))

/-- A fairness that saturates no fewer tasks keeps a list graded. -/
theorem Graded.tighten (graded : Graded f ts) (tighter : g.AtLeastAs f) : Graded g ts := by
  induction ts with
  | nil => trivial
  | cons t ts ih =>
    obtain ⟨tail, sorted⟩ := graded
    refine ⟨ih tail, fun unsaturated => sorted fun u member => ?_⟩
    cases saturated : u.isSaturated f with
    | false => rfl
    | true =>
      have still := tighter.isSaturated saturated
      rw [unsaturated u member] at still
      contradiction

theorem unsaturated_of_bypass (unsaturated : t.bypass.isSaturated f = false) : t.isSaturated f = false := by
  cases saturated : t.isSaturated f with
  | false => rfl
  | true => rw [Task.isSaturated_bypass saturated] at unsaturated; contradiction

theorem Graded.map_bypass (graded : Graded f ts) : Graded f (ts.map Task.bypass) := by
  induction ts with
  | nil => trivial
  | cons t ts ih =>
    obtain ⟨tail, sorted⟩ := graded
    refine ⟨ih tail, ?_⟩
    intro unsaturated u member
    obtain ⟨w, old, rfl⟩ := List.mem_map.mp member
    rw [Task.priority_bypass, Task.priority_bypass]
    refine sorted (fun v inside => unsaturated_of_bypass ?_) w old
    exact unsaturated v.bypass (List.mem_map_of_mem (f := Task.bypass) inside)

/-- A new task is put ahead of a list whose first task is less urgent and where none is
    saturated; else behind the first task. -/
theorem placed_cons (f : Fairness) (t u : Task) (ts : List Task) :
    placed f (u :: ts) t =
      if t.priority < u.priority ∧ ∀ w ∈ u :: ts, w.isSaturated f = false then t :: (u :: ts).map Task.bypass
      else u :: placed f ts t := by
  rw [placed, staying]
  split
  · rfl
  · rw [List.take_succ_cons, List.drop_succ_cons]
    rfl

theorem mem_placed {u : Task} (member : u ∈ placed f ts t) : u = t ∨ ∃ w ∈ ts, u = w ∨ u = w.bypass := by
  rcases List.mem_append.mp member with kept | later
  · exact .inr ⟨u, List.mem_of_mem_take kept, .inl rfl⟩
  · rcases List.mem_cons.mp later with rfl | passed
    · exact .inl rfl
    · obtain ⟨w, old, rfl⟩ := List.mem_map.mp passed
      exact .inr ⟨w, List.mem_of_mem_drop old, .inr rfl⟩

/-- A pending task stays pending when a new one comes, and is bypassed at most. -/
theorem placed_of_mem (f : Fairness) (t : Task) {w : Task} (member : w ∈ ts) :
    w ∈ placed f ts t ∨ w.bypass ∈ placed f ts t := by
  rw [← List.take_append_drop (staying f t.priority ts) ts] at member
  rcases List.mem_append.mp member with kept | passed
  · exact .inl (List.mem_append_left _ kept)
  · exact .inr (List.mem_append_right _ (List.mem_cons_of_mem _ (List.mem_map_of_mem passed)))

/-- Putting a task in its place keeps the list graded. -/
theorem Graded.placed (graded : Graded f ts) (t : Task) : Graded f (placed f ts t) := by
  induction ts with
  | nil => exact ⟨trivial, fun _ u member => by simp at member⟩
  | cons u ts ih =>
    rw [placed_cons]
    split
    · next passes =>
      obtain ⟨urgent, unsaturated⟩ := passes
      refine ⟨graded.map_bypass, ?_⟩
      intro _ w member
      obtain ⟨v, old, rfl⟩ := List.mem_map.mp member
      rw [Task.priority_bypass]
      rcases List.mem_cons.mp old with rfl | later
      · exact UInt8.le_of_lt urgent
      · exact UInt8.le_trans (UInt8.le_of_lt urgent) (graded.2 unsaturated v later)
    · next stays =>
      refine ⟨ih graded.1, ?_⟩
      intro unsaturated w member
      -- What was pending is not saturated either, so the new task stayed behind `u` for want of urgency.
      have before : ∀ v ∈ u :: ts, v.isSaturated f = false := by
        intro v inside
        rcases List.mem_cons.mp inside with rfl | old
        · exact unsaturated v (by simp)
        · rcases placed_of_mem f t old with kept | passed
          · exact unsaturated v (List.mem_cons_of_mem _ kept)
          · exact unsaturated_of_bypass (unsaturated v.bypass (List.mem_cons_of_mem _ passed))
      rcases mem_placed member with rfl | ⟨v, old, rfl | rfl⟩
      · exact UInt8.not_lt.mp (fun urgent => stays ⟨urgent, before⟩)
      · exact graded.2 before w old
      · rw [Task.priority_bypass]
        exact graded.2 before v old

/-! ### The tasks of one class -/

variable {α : Type} {pick : Task → Option α} {p : UInt8}

/-- The picked tasks of a list are all as urgent as each other. -/
def Uniform (pick : Task → Option α) (p : UInt8) (ts : List Task) : Prop :=
  ∀ t ∈ ts, (pick t).isSome = true → t.priority = p

theorem Uniform.placed (uniform : Uniform pick p (t :: ts)) (bypassed : ∀ t, pick t.bypass = pick t) :
    Uniform pick p (placed f ts t) := by
  intro u member picked
  rcases mem_placed member with rfl | ⟨w, old, rfl | rfl⟩
  · exact uniform u (by simp) picked
  · exact uniform u (List.mem_cons_of_mem _ old) picked
  · rw [Task.priority_bypass]
    exact uniform w (List.mem_cons_of_mem _ old) (bypassed w ▸ picked)

/-- A new task comes last of those as urgent as it. -/
theorem Graded.filterMap_placed (graded : Graded f ts) (uniform : Uniform pick p (t :: ts))
    (bypassed : ∀ t, pick t.bypass = pick t) :
    (TaskArena.placed f ts t).filterMap pick = ts.filterMap pick ++ (pick t).toList := by
  induction ts with
  | nil => cases picked : pick t <;> simp [TaskArena.placed, picked]
  | cons u ts ih =>
    rw [placed_cons]
    split
    · next passes =>
      obtain ⟨urgent, unsaturated⟩ := passes
      have same : ((u :: ts).map Task.bypass).filterMap pick = (u :: ts).filterMap pick := by
        rw [List.filterMap_map]
        exact List.filterMap_congr (fun w _ => bypassed w)
      cases picked : pick t with
      | none => rw [List.filterMap_cons_none picked, same, Option.toList_none, List.append_nil]
      | some a =>
        -- All tasks that the new one passes are less urgent, so none of them is picked.
        have none_passed : (u :: ts).filterMap pick = [] := by
          refine List.filterMap_eq_nil_iff.mpr (fun w member => ?_)
          cases found : pick w with
          | none => rfl
          | some b =>
            have class_t := uniform t (by simp) (by simp [picked])
            have class_w := uniform w (List.mem_cons_of_mem _ member) (by simp [found])
            have least : u.priority ≤ w.priority := by
              rcases List.mem_cons.mp member with rfl | later
              · exact UInt8.le_refl _
              · exact graded.2 unsaturated w later
            have less := UInt8.lt_of_lt_of_le urgent least
            rw [class_t, class_w] at less
            exact absurd less (UInt8.lt_irrefl p)
        rw [List.filterMap_cons_some picked, same, none_passed]
        rfl
    · have rest : Uniform pick p (t :: ts) := by
        intro w member
        exact uniform w (by rcases List.mem_cons.mp member with rfl | old <;> simp [*])
      have onward := ih graded.1 rest
      cases picked : pick u <;> simp [picked, onward]

/-- New tasks come in turn behind those as urgent as they are. -/
theorem Graded.placedAll (graded : Graded f ts) {new : List Task} (uniform : Uniform pick p (ts ++ new))
    (bypassed : ∀ t, pick t.bypass = pick t) :
    (new.foldl (TaskArena.placed f) ts).filterMap pick = ts.filterMap pick ++ new.filterMap pick := by
  induction new generalizing ts with
  | nil => simp
  | cons t new ih =>
    have here : Uniform pick p (t :: ts) := fun u member => uniform u (by
      rcases List.mem_cons.mp member with rfl | old <;> simp [*])
    have onward : Uniform pick p (TaskArena.placed f ts t ++ new) := by
      intro u member
      rcases List.mem_append.mp member with now | later
      · exact here.placed bypassed u now
      · exact uniform u (by simp [later])
    rw [List.foldl_cons, ih (graded.placed t) onward, graded.filterMap_placed here bypassed, List.append_assoc]
    cases picked : pick t <;> simp [picked]

theorem Graded.foldl_placed (graded : Graded f ts) (new : List Task) : Graded f (new.foldl (TaskArena.placed f) ts) := by
  induction new generalizing ts with
  | nil => exact graded
  | cons t new ih => exact ih (graded.placed t)

end TaskArena

/-! ### Messages in line -/

/-- The payloads that a sink was sent, in order. -/
def Tapped.sentTo {τ : Type} (sink : SinkId) (t : Tapped τ) : List Bytes :=
  t.calls.filterMap fun (s, payload) => if s = sink then some payload else none

namespace Output

namespace Ledger

/-- The numbers of the messages that a sink was passed, in order. -/
def passedTo (l : Ledger) (sink : SinkId) : List Nat :=
  l.deliveries.filterMap fun d => if d.sink = sink then some d.number else none

/-- The number of the message that a task is to send to a sink. -/
def claim? (l : Ledger) (sink : SinkId) (t : Task) : Option Nat :=
  match t.action with
  | .send s buffer => if s = sink then some (l.owner buffer) else none
  | .sleepUntil _ => none

variable {l : Ledger} {sink : SinkId}

theorem claim?_original (t : Task) : l.claim? sink t.original = l.claim? sink t := rfl

theorem claim?_bypass (t : Task) : l.claim? sink t.bypass = l.claim? sink t := by
  rw [← claim?_original, Task.original_bypass, claim?_original]

theorem action_of_claim? {t : Task} (claims : (l.claim? sink t).isSome = true) : ∃ buffer, t.action = .send sink buffer := by
  unfold claim? at claims
  cases action : t.action with
  | send s buffer =>
    by_cases same : s = sink
    · exact ⟨buffer, by rw [same]⟩
    · simp [action, same] at claims
  | sleepUntil deadline => simp [action] at claims

/-- A task that is run passes on what it was to send. -/
theorem passedTo_ran (e : Executed) : (l.enter (.ran e)).passedTo sink = l.passedTo sink ++ (l.claim? sink e.task).toList := by
  cases action : e.task.action with
  | send s buffer =>
    by_cases same : s = sink
    · simp [enter, passedTo, claim?, action, same]
    · simp [enter, passedTo, claim?, action, same]
  | sleepUntil deadline => simp [enter, claim?, action]

theorem enter_ran (e : Executed) : (l.enter (.ran e)).messages = l.messages ∧ (l.enter (.ran e)).owner = l.owner := by
  cases action : e.task.action <;> simp [enter, action]

end Ledger

variable {B L Q : Nat} {τ : Type} {o p : Output B L Q (Tapped τ)} {l : Ledger}

/-- The messages that a sink was passed, then those that it is still to be sent in the
    order of their tasks, are all messages as they were accepted. -/
structure InLine (o : Output B L Q (Tapped τ)) (l : Ledger) : Prop where
  graded : TaskArena.Graded o.mux.arena.fairness o.mux.arena.pending
  urgency : ∀ t ∈ o.mux.tasks, ∀ sink buffer, t.action = .send sink buffer → t.priority = o.mux.priorityOf sink
  numbers : ∀ sink, l.passedTo sink ++ (o.mux.arena.pending ++ o.mux.handed).filterMap (l.claim? sink) =
    List.range l.messages.length

theorem inLine_start (sizes : Mux.Sizes B Q) (settings : MuxSettings) (outlets : τ) :
    InLine (start settings { outlets } : Output B L Q (Tapped τ)) {} := by
  have none_waits : (start settings { outlets } : Output B L Q (Tapped τ)).mux.tasks = [] :=
    Mux.tasks_ofSettings sizes settings
  obtain ⟨none_handed, none_pending⟩ := List.append_eq_nil_iff.mp none_waits
  constructor
  · rw [none_pending]
    trivial
  · intro t member
    rw [none_waits] at member
    simp at member
  · intro sink
    rw [none_pending, none_handed]
    rfl

/-- The settings after an event may not change what sinks are worth, and leave the
    pending tasks graded. -/
def Steady (o : Output B L Q τ) (s : MuxSettings) : Prop :=
  s.consolePriority = o.mux.consolePriority ∧ s.wifiPriority = o.mux.wifiPriority ∧
    TaskArena.Graded s.fairness o.mux.arena.pending

instance (o : Output B L Q τ) (s : MuxSettings) : Decidable (o.Steady s) := inferInstanceAs (Decidable (_ ∧ _))

namespace InLine

theorem uniform (inLine : InLine o l) (sink : SinkId) :
    TaskArena.Uniform (l.claim? sink) (o.mux.priorityOf sink) (o.mux.arena.pending ++ o.mux.handed) := by
  intro t member claims
  obtain ⟨buffer, action⟩ := Ledger.action_of_claim? claims
  refine inLine.urgency t ?_ sink buffer action
  rw [Mux.tasks]
  exact List.mem_append.mpr (List.mem_append.mp member).symm

/-- A message is last in line for every sink. -/
theorem accept (inLine : InLine o l) (balanced : o.mux.Balanced [] []) {message : Bytes} {e : Emitted}
    (accepted : Accepted o message e p) : InLine p (l.enter (.accepted message e)) := by
  obtain ⟨console, wifi, -, fairness⟩ := MuxSettings.mk.inj accepted.settings
  have worth : ∀ sink, p.mux.priorityOf sink = o.mux.priorityOf sink := by
    intro sink
    cases sink
    · exact console
    · exact wifi
  constructor
  · rw [fairness, accepted.pending]
    exact inLine.graded
  · intro t member sink buffer action
    rw [Mux.tasks, accepted.handed, accepted.pending] at member
    simp only [List.mem_append, List.mem_map] at member
    rcases member with (handed | ⟨other, -, rfl⟩) | pending
    · exact (inLine.urgency t (List.mem_append_left _ handed) sink buffer action).trans (worth sink).symm
    · obtain ⟨rfl, -⟩ := Action.send.inj action
      exact (worth other).symm
    · exact (inLine.urgency t (List.mem_append_right _ pending) sink buffer action).trans (worth sink).symm
  · intro sink
    -- A task that waits is not for the buffer that was free.
    have waiting : (o.mux.arena.pending ++ o.mux.handed).filterMap ((l.enter (.accepted message e)).claim? sink) =
        (o.mux.arena.pending ++ o.mux.handed).filterMap (l.claim? sink) := by
      refine List.filterMap_congr (fun t member => ?_)
      cases action : t.action with
      | sleepUntil deadline => simp [Ledger.claim?, action]
      | send s buffer =>
        have listed : t ∈ o.mux.tasks := List.mem_append.mpr (List.mem_append.mp member).symm
        have due : o.mux.due t.duty = true := (balanced.mem_iff _).mp (by simpa using ⟨t, listed, rfl⟩)
        rw [Task.duty, action] at due
        have other : buffer ≠ e.buffer := by
          rintro rfl
          rw [Mux.due, accepted.unheld] at due
          contradiction
        simp [Ledger.claim?, action, l.owner_old message e other]
    have new : (SinkId.all.map fun s => ({ action := .send s e.buffer, priority := o.mux.priorityOf s, seq := e.seq } : Task)).filterMap
        ((l.enter (.accepted message e)).claim? sink) = [l.messages.length] := by
      cases sink <;> simp [SinkId.all, Ledger.claim?, l.owner_new message e]
    have count : (l.enter (.accepted message e)).messages.length = l.messages.length + 1 := by simp [Ledger.enter]
    rw [accepted.pending, accepted.handed, ← List.append_assoc, List.filterMap_append, waiting, new, count,
      List.range_succ, ← inLine.numbers sink, List.append_assoc]
    rfl

/-- The task that is run sends the message that is first in line for its sink. -/
theorem run [Outlets τ] (inLine : InLine o l) {e : Executed} (ran : Ran o e p) : InLine p (l.enter (.ran e)) := by
  obtain ⟨console, wifi, -, fairness⟩ := MuxSettings.mk.inj ran.settings
  obtain ⟨messages, owner⟩ := l.enter_ran e
  have placed := inLine.graded.foldl_placed o.mux.handed
  rw [ran.order] at placed
  constructor
  · rw [fairness]
    exact placed.1
  · intro t member sink buffer action
    obtain ⟨s, waits, original⟩ := ran.original (List.mem_cons_of_mem e.task member)
    have same : s.original.action = t.original.action ∧ s.original.priority = t.original.priority := by
      rw [original]
      exact ⟨rfl, rfl⟩
    have worth := inLine.urgency s waits sink buffer (same.1.trans action)
    rw [← show s.priority = t.priority from same.2, worth]
    cases sink
    · exact console.symm
    · exact wifi.symm
  · intro sink
    have claims : (l.enter (.ran e)).claim? sink = l.claim? sink := by
      funext t
      rw [Ledger.claim?, owner]
      rfl
    have order := inLine.graded.placedAll (inLine.uniform sink) Ledger.claim?_bypass
    rw [ran.order, ← List.filterMap_append] at order
    have first : (e.task :: p.mux.arena.pending).filterMap (l.claim? sink) =
        (l.claim? sink e.task).toList ++ p.mux.arena.pending.filterMap (l.claim? sink) := by
      cases claimed : l.claim? sink e.task <;> simp [claimed]
    rw [messages, claims, ran.handed, List.append_nil, Ledger.passedTo_ran, List.append_assoc, ← first, order]
    exact inLine.numbers sink

theorem settle (inLine : InLine o l) {s : MuxSettings} (settled : Settled o s p) (steady : o.Steady s) : InLine p l := by
  obtain ⟨console, wifi, graded⟩ := steady
  obtain ⟨console', wifi', -, fairness⟩ := MuxSettings.mk.inj settled.settings
  constructor
  · rw [settled.pending]
    exact fairness ▸ graded
  · intro t member sink buffer action
    rw [Mux.tasks, settled.handed, settled.pending] at member
    rw [inLine.urgency t member sink buffer action]
    cases sink
    · exact (console'.trans console).symm
    · exact (wifi'.trans wifi).symm
  · intro sink
    rw [settled.pending, settled.handed]
    exact inLine.numbers sink

theorem doze (inLine : InLine o l) {deadline : Instant} (dozed : Dozed o deadline p) : InLine p l := by
  obtain ⟨console, wifi, -, fairness⟩ := MuxSettings.mk.inj dozed.settings
  obtain ⟨seq, handed⟩ := dozed.handed
  constructor
  · rw [fairness, dozed.pending]
    exact inLine.graded
  · intro t member sink buffer action
    rw [Mux.tasks, handed, dozed.pending] at member
    simp only [List.mem_append, List.mem_singleton] at member
    have worth : o.mux.priorityOf sink = p.mux.priorityOf sink := by
      cases sink
      · exact console.symm
      · exact wifi.symm
    rw [← worth]
    rcases member with (before | rfl) | pending
    · exact inLine.urgency t (List.mem_append_left _ before) sink buffer action
    · simp at action
    · exact inLine.urgency t (List.mem_append_right _ pending) sink buffer action
  · intro sink
    have none_claimed : l.claim? sink { action := .sleepUntil deadline, priority := o.mux.sleepPriority, seq } = none := rfl
    rw [dozed.pending, handed, ← List.append_assoc, List.filterMap_append, List.filterMap_cons_none none_claimed,
      List.filterMap_nil, List.append_nil]
    exact inLine.numbers sink

theorem step [Outlets τ] (inLine : InLine o l) {event : Event} (step : Step o event p)
    (steady : ∀ s, event = .settled s → o.Steady s) : InLine p (l.enter event) := by
  cases event with
  | accepted message e => exact inLine.accept step.before step.effect
  | ran e => exact inLine.run step.effect
  | dozed deadline => exact inLine.doze step.effect
  | settled s => exact inLine.settle step.effect (steady s rfl)

end InLine

/-! ### Runs -/

/-- Whatever settings a request changes are steady. -/
def Keeps (o : Output B L Q τ) : Request → Prop
  | .configure s => o.Steady s
  | .setFairness fairness => o.Steady { o.mux.settings with fairness }
  | _ => True

instance (o : Output B L Q τ) (request : Request) : Decidable (o.Keeps request) := by
  cases request <;> unfold Keeps <;> infer_instance

/-- Settings that leave what sinks are worth, and do not loosen the fairness while tasks are pending. -/
def NoLooser (o : Output B L Q τ) (s : MuxSettings) : Prop :=
  s.consolePriority = o.mux.consolePriority ∧ s.wifiPriority = o.mux.wifiPriority ∧
    (o.mux.arena.pending = [] ∨ s.fairness.AtLeastAs o.mux.arena.fairness)

instance (o : Output B L Q τ) (s : MuxSettings) : Decidable (o.NoLooser s) := inferInstanceAs (Decidable (_ ∧ _))

/-- Such settings are steady: a list without tasks is graded under any fairness. -/
theorem InLine.steady (inLine : InLine o l) {s : MuxSettings} (no_looser : o.NoLooser s) : o.Steady s := by
  obtain ⟨console, wifi, none_pending | tighter⟩ := no_looser
  · refine ⟨console, wifi, ?_⟩
    rw [none_pending]
    trivial
  · exact ⟨console, wifi, inLine.graded.tighten tighter⟩

/-- Whatever settings a request changes are no looser. -/
def HoldsTight (o : Output B L Q τ) : Request → Prop
  | .configure s => o.NoLooser s
  | .setFairness fairness => o.NoLooser { o.mux.settings with fairness }
  | _ => True

instance (o : Output B L Q τ) (request : Request) : Decidable (o.HoldsTight request) := by
  cases request <;> unfold HoldsTight <;> infer_instance

theorem InLine.keeps (inLine : InLine o l) {request : Request} (tight : o.HoldsTight request) : o.Keeps request := by
  cases request with
  | configure s => exact inLine.steady tight
  | setFairness fairness => exact inLine.steady tight
  | _ => trivial

variable [Outlets τ]

/-- Whatever settings the requests of a run change are steady. -/
def KeepsAll : List Request → Output B L Q τ → Prop
  | [], _ => True
  | request :: requests, o => o.Keeps request ∧ KeepsAll requests (o.answer request).2

instance decidableKeepsAll : (requests : List Request) → (o : Output B L Q τ) → Decidable (KeepsAll requests o)
  | [], _ => isTrue trivial
  | request :: requests, o =>
    have := decidableKeepsAll requests (o.answer request).2
    inferInstanceAs (Decidable (_ ∧ _))

theorem settles_of_events {o : Output B L Q τ} {request : Request} {s : MuxSettings}
    (member : .settled s ∈ o.events request) :
    request = .configure s ∨ ∃ fairness, request = .setFairness fairness ∧ s = { o.mux.settings with fairness } := by
  rcases List.mem_append.mp member with ran | other
  · simp at ran
  · split at other <;> simp at other
    · exact .inl (by rw [other])
    · exact .inr ⟨_, rfl, other⟩

theorem InLine.answer (sizes : Mux.Sizes B Q) (balanced : o.mux.Balanced [] []) (inLine : InLine o l) {request : Request}
    (keeps : o.Keeps request) :
    InLine (o.answer request).2 ((o.events request).foldl (fun l event => l.enter event) l) := by
  have settles : ∀ {q : Output B L Q (Tapped τ)} {s : MuxSettings}, Step o (.settled s) q → o.Steady s →
      InLine q (l.enter (.settled s)) := by
    intro q s step steady
    refine inLine.step step (fun other same => ?_)
    obtain rfl := Event.settled.inj same
    exact steady
  cases request with
  | configure s =>
    have since : ranSince o (o.configure s) = [] := ranSince_self rfl
    simpa [events, Output.answer, since] using settles (settled_step balanced s) keeps
  | setFairness fairness =>
    have since : ranSince o (o.setFairness fairness) = [] := ranSince_self rfl
    simpa [events, Output.answer, since] using settles (refaired_step balanced fairness) keeps
  | _ =>
    refine (answer_steps sizes balanced _).1.keepWhere (P := InLine) (A := fun event => ∀ s, event ≠ .settled s)
      (fun unsettled step inLine => inLine.step step (fun s same => absurd same (unsettled s))) ?_ inLine
    rintro event member s rfl
    rcases settles_of_events member with same | ⟨_, same, -⟩ <;> cases same

theorem InLine.answerAll (sizes : Mux.Sizes B Q) (balanced : o.mux.Balanced [] []) (inLine : InLine o l)
    {requests : List Request} (keeps : KeepsAll requests o) :
    InLine (answerAll requests o) ((history requests o).foldl (fun l event => l.enter event) l) := by
  induction requests generalizing o l with
  | nil => exact inLine
  | cons request requests ih =>
    obtain ⟨here, others⟩ := keeps
    rw [history, List.foldl_append]
    exact ih (answer_steps sizes balanced request).2 (inLine.answer sizes balanced here) others

/-- Whatever settings the requests of a run change are no looser. -/
def NeverLoosens : List Request → Output B L Q τ → Prop
  | [], _ => True
  | request :: requests, o => o.HoldsTight request ∧ NeverLoosens requests (o.answer request).2

instance decidableNeverLoosens : (requests : List Request) → (o : Output B L Q τ) → Decidable (NeverLoosens requests o)
  | [], _ => isTrue trivial
  | request :: requests, o =>
    have := decidableNeverLoosens requests (o.answer request).2
    inferInstanceAs (Decidable (_ ∧ _))

theorem InLine.keepsAll (sizes : Mux.Sizes B Q) (balanced : o.mux.Balanced [] []) (inLine : InLine o l)
    {requests : List Request} (never : NeverLoosens requests o) : KeepsAll requests o := by
  induction requests generalizing o l with
  | nil => trivial
  | cons request requests ih =>
    obtain ⟨here, others⟩ := never
    have keeps := inLine.keeps here
    exact ⟨keeps, ih (answer_steps sizes balanced request).2 (inLine.answer sizes balanced keeps) others⟩

/-- A run keeps the order of emission if what sinks are worth stays as it is and the fairness is
    never loosened while tasks are pending. -/
theorem keepsAll_of_neverLoosens (sizes : Mux.Sizes B Q) (settings : MuxSettings) (outlets : τ) {requests : List Request}
    (never : NeverLoosens requests (start settings { outlets } : Output B L Q (Tapped τ))) :
    KeepsAll requests (start settings { outlets } : Output B L Q (Tapped τ)) :=
  (inLine_start sizes settings outlets).keepsAll sizes (balanced_start sizes settings { outlets }) never

/-- What a sink was sent are the messages that it was passed. -/
theorem sentTo_eq {l : Ledger} {deliveries : List Delivery} {calls : List (SinkId × Bytes)}
    (carried : List.Forall₂ (l.Carries L) deliveries calls) (sink : SinkId) :
    calls.filterMap (fun (s, payload) => if s = sink then some payload else none) =
      (deliveries.filterMap fun d => if d.sink = sink then some d.number else none).map fun i =>
        (l.messages[i]?.elim [] Prod.fst).take L := by
  induction carried with
  | nil => rfl
  | @cons d call deliveries calls carries _ ih =>
    obtain ⟨message, e, found, -, -, rfl⟩ := carries
    by_cases same : d.sink = sink
    · simp [same, ih, found]
    · simp [same, ih]

/-- As long as changes of the settings leave what the sinks are worth and the pending
    tasks graded, a sink is passed the accepted messages in turn, and leaves out none. -/
theorem sent_in_emission_order (sizes : Mux.Sizes B Q) (settings : MuxSettings) (outlets : τ) (requests : List Request)
    (keeps : KeepsAll requests (start settings { outlets } : Output B L Q (Tapped τ))) :
    let first : Output B L Q (Tapped τ) := start settings { outlets }
    let o := answerAll requests first
    let l := Ledger.ofHistory (history requests first)
    ∀ sink, ∃ count ≤ l.messages.length, l.passedTo sink = List.range count ∧
      o.outlets.sentTo sink = (l.messages.take count).map fun m => m.1.take L := by
  intro first o l sink
  have balanced := balanced_start (L := L) sizes settings ({ outlets } : Tapped τ)
  have inLine : InLine o l := (inLine_start sizes settings outlets).answerAll sizes balanced keeps
  have faithful : Faithful o l :=
    (answerAll_steps sizes balanced requests).1.keep (P := Faithful) (fun step faithful => faithful.step step)
      (faithful_start sizes settings outlets)
  have whole := inLine.numbers sink
  set count := (l.passedTo sink).length
  have few : count ≤ l.messages.length := by
    have lengths := congrArg List.length whole
    rw [List.length_append, List.length_range] at lengths
    omega
  have passed : l.passedTo sink = List.range count := by
    have front := congrArg (List.take count) whole
    rwa [List.take_left, List.take_range, Nat.min_eq_left few] at front
  refine ⟨count, few, passed, ?_⟩
  rw [Tapped.sentTo, sentTo_eq faithful.calls sink, show l.deliveries.filterMap _ = l.passedTo sink from rfl, passed]
  apply List.ext_getElem
  · simp [few]
  · intro i inside _
    have early : i < l.messages.length := by
      rw [List.length_map, List.length_range] at inside
      omega
    simp [early]

/-- Fairness is tightened while tasks are pending, and taken back when none is. -/
def tightened : List Request :=
  [.tryEmit [0], .tryEmit [1], .process, .setFairness (.bounded 1), .tryEmit [2], .processAll, .setFairness .strict,
    .tryEmit [3], .process]

theorem sent_in_emission_order_tightened :
    KeepsAll tightened (start {} { outlets := { board := {} } } : Output 3 8 8 (Tapped (Rehearsal Bench))) ∧
      ∃ count ≤ 4, (answerAll tightened (start {} { outlets := { board := {} } } :
        Output 3 8 8 (Tapped (Rehearsal Bench)))).outlets.sentTo .wifi = [[0], [1], [2], [3]].take count := by
  have sizes : Mux.Sizes 3 8 := ⟨by decide, ⟨3, rfl⟩, by decide⟩
  have never : NeverLoosens tightened
      (start {} { outlets := { board := {} } } : Output 3 8 8 (Tapped (Rehearsal Bench))) := by decide +kernel
  have keeps := keepsAll_of_neverLoosens sizes {} ({ board := {} } : Rehearsal Bench) never
  obtain ⟨count, few, -, sent⟩ := sent_in_emission_order (L := 8) sizes {} ({ board := {} } : Rehearsal Bench) tightened keeps .wifi
  have messages : (Ledger.ofHistory (history tightened (start {} { outlets := { board := {} } } :
      Output 3 8 8 (Tapped (Rehearsal Bench))))).messages.map (fun m => m.1.take 8) = [[0], [1], [2], [3]] := by
    decide +kernel
  refine ⟨keeps, count, ?_, ?_⟩
  · have lengths := congrArg List.length messages
    rw [List.length_map] at lengths
    exact Nat.le_trans few (Nat.le_of_eq lengths)
  · rw [sent, ← messages, List.map_take]

/-- Two messages come under a limit that saturates their console tasks, and a third one
    after the limit was raised. -/
def loosened : List Request :=
  [.tryEmit [0], .tryEmit [1], .process, .setFairness (.bounded 8), .tryEmit [2], .processAll]

/-- Fairness that is loosened while tasks are pending lets a message overtake another on
    the way to the same sink. -/
theorem overtaken_after_loosening :
    (answerAll loosened (start { fairness := .bounded 1 } { outlets := { board := {} } } :
      Output 3 8 8 (Tapped (Rehearsal Bench)))).outlets.sentTo .wifi = [[0], [2], [1]] := by
  decide +kernel

end Output
end AirMonitor
