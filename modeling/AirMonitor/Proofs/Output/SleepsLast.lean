import AirMonitor.Proofs.Output.Conservation
import AirMonitor.Proofs.Output.EmissionOrder

/-!
A sleep runs when nothing is left to send. While the priority of sleeps is a larger number
than those of both sinks, a sleep stays behind all other tasks: it is never saturated, so a
send passes it whatever the fairness is, and it passes nothing itself (`SleepsBehind.placed`).
So at the moment it runs every accepted message was passed to every sink
(`Output.sleep_runs_last`).
-/
namespace AirMonitor

/-- Both settings rank sinks and sleeps alike. -/
structure MuxSettings.RanksAs (s other : MuxSettings) : Prop where
  console : s.consolePriority = other.consolePriority
  wifi : s.wifiPriority = other.wifiPriority
  sleep : s.sleepPriority = other.sleepPriority

/-- Sleeps are less urgent than messages to either sink. -/
structure MuxSettings.SleepsLast (s : MuxSettings) : Prop where
  console : s.consolePriority < s.sleepPriority
  wifi : s.wifiPriority < s.sleepPriority

namespace TaskArena
variable {f : Fairness} {t : Task} {ts : List Task} {rank : UInt8}

/-! ### Sleeps in the pending list -/

/-- A sleep has a rank of its own, and every other task is more urgent. -/
def Ranked (rank : UInt8) (t : Task) : Prop := if t.isSleep then t.priority = rank else t.priority < rank

/-- Behind a sleep there are only sleeps. -/
def SleepsBehind (ts : List Task) : Prop := ts.Pairwise fun t u => t.isSleep = true → u.isSleep = true

theorem Ranked.le (ranked : Ranked rank t) : t.priority ≤ rank := by
  unfold Ranked at ranked
  split at ranked
  · exact UInt8.le_of_eq ranked
  · exact UInt8.le_of_lt ranked

theorem Ranked.bypass (ranked : Ranked rank t) : Ranked rank t.bypass := by
  unfold Ranked at *
  rwa [Task.priority_bypass, isSleep_bypass]

theorem Ranked.placed (ranked : ∀ u ∈ t :: ts, Ranked rank u) : ∀ u ∈ TaskArena.placed f ts t, Ranked rank u := by
  intro u member
  rcases mem_placed member with rfl | ⟨w, old, rfl | rfl⟩
  · exact ranked u List.mem_cons_self
  · exact ranked u (List.mem_cons_of_mem _ old)
  · exact (ranked w (List.mem_cons_of_mem _ old)).bypass

theorem isSaturated_sleep (sleep : t.isSleep = true) (f : Fairness) : t.isSaturated f = false := by
  cases f <;> simp [Task.isSaturated, sleep]

theorem SleepsBehind.map_bypass (behind : SleepsBehind ts) : SleepsBehind (ts.map Task.bypass) := by
  refine List.pairwise_map.mpr (behind.imp fun later => ?_)
  rwa [isSleep_bypass, isSleep_bypass]

/-- A new task takes its place ahead of the sleeps, or behind everything if it is a sleep. -/
theorem SleepsBehind.placed (behind : SleepsBehind ts) (ranked : ∀ u ∈ t :: ts, Ranked rank u) :
    SleepsBehind (placed f ts t) := by
  induction ts with
  | nil => exact List.pairwise_singleton _ t
  | cons u ts ih =>
    obtain ⟨head, tail⟩ := List.pairwise_cons.mp behind
    have ranked_t := ranked t List.mem_cons_self
    have ranked_u := ranked u (by simp)
    rw [placed_cons]
    split
    · next passes =>
      refine List.pairwise_cons.mpr ⟨fun w _ sleep => ?_, behind.map_bypass⟩
      -- A sleep is not more urgent than any task.
      have last : t.priority = rank := by rwa [Ranked, if_pos sleep] at ranked_t
      exact absurd (last ▸ passes.1) (UInt8.not_lt.mpr ranked_u.le)
    · next stays =>
      have rest : ∀ w ∈ t :: ts, Ranked rank w := fun w member => ranked w (by
        rcases List.mem_cons.mp member with rfl | old <;> simp [*])
      refine List.pairwise_cons.mpr ⟨fun w member sleep => ?_, ih tail rest⟩
      rcases mem_placed member with rfl | ⟨v, old, rfl | rfl⟩
      · -- Had it been a send, it would have passed the sleep, behind which nothing is saturated.
        by_contra send
        have urgent : w.priority < u.priority := by
          rw [Ranked, if_neg send] at ranked_t
          rw [Ranked, if_pos sleep] at ranked_u
          rwa [ranked_u]
        refine stays ⟨urgent, fun v inside => isSaturated_sleep ?_ f⟩
        rcases List.mem_cons.mp inside with rfl | old
        · exact sleep
        · exact head v old sleep
      · exact head w old sleep
      · rw [isSleep_bypass]
        exact head v old sleep

theorem SleepsBehind.placedAll (behind : SleepsBehind ts) {new : List Task} (ranked : ∀ u ∈ new ++ ts, Ranked rank u) :
    SleepsBehind (new.foldl (TaskArena.placed f) ts) := by
  induction new generalizing ts with
  | nil => exact behind
  | cons t new ih =>
    have here : ∀ u ∈ t :: ts, Ranked rank u := fun u member => ranked u (by
      rcases List.mem_cons.mp member with rfl | old <;> simp [*])
    refine ih (behind.placed here) ?_
    intro u member
    rcases List.mem_append.mp member with later | now
    · exact ranked u (by simp [later])
    · exact Ranked.placed here u now

end TaskArena

namespace Output
variable {B L Q : Nat} {τ : Type} {o p q : Output B L Q τ} {s : MuxSettings}

/-! ### One step -/

/-- Sinks and sleeps are ranked as some settings have it, and sleeps stand last. -/
structure SleepsLast (s : MuxSettings) (o : Output B L Q τ) : Prop where
  ranks : o.mux.settings.RanksAs s
  ranked : ∀ t ∈ o.mux.tasks, TaskArena.Ranked s.sleepPriority t
  behind : TaskArena.SleepsBehind o.mux.arena.pending

theorem sleepsLast_start (sizes : Mux.Sizes B Q) (settings : MuxSettings) (outlets : τ) :
    SleepsLast settings (start settings outlets : Output B L Q τ) := by
  have none_waits : (start settings outlets : Output B L Q τ).mux.tasks = [] := Mux.tasks_ofSettings sizes settings
  refine ⟨⟨rfl, rfl, rfl⟩, ?_, ?_⟩
  · rw [none_waits]
    nofun
  · rw [(List.append_eq_nil_iff.mp none_waits).2]
    exact .nil

namespace SleepsLast

/-- The tasks that a message or a sleep adds are ranked as all others. -/
theorem hand_over (last : SleepsLast s o) {new : List Task} (settings : p.mux.settings = o.mux.settings)
    (handed : p.mux.handed = o.mux.handed ++ new) (pending : p.mux.arena.pending = o.mux.arena.pending)
    (ranked : ∀ t ∈ new, TaskArena.Ranked s.sleepPriority t) : SleepsLast s p := by
  refine ⟨settings ▸ last.ranks, ?_, pending ▸ last.behind⟩
  intro t member
  rw [Mux.tasks, handed, pending] at member
  simp only [List.mem_append] at member
  rcases member with (before | now) | pending
  · exact last.ranked t (List.mem_append_left _ before)
  · exact ranked t now
  · exact last.ranked t (List.mem_append_right _ pending)

theorem priorityOf_lt (last : SleepsLast s o) (sleeps_last : s.SleepsLast) (sink : SinkId) :
    o.mux.priorityOf sink < s.sleepPriority := by
  cases sink with
  | console =>
    have same : o.mux.priorityOf .console = s.consolePriority := last.ranks.console
    rw [same]
    exact sleeps_last.console
  | wifi =>
    have same : o.mux.priorityOf .wifi = s.wifiPriority := last.ranks.wifi
    rw [same]
    exact sleeps_last.wifi

variable [Outlets τ]

theorem run (last : SleepsLast s o) {e : Executed} (ran : Ran o e p) : SleepsLast s p := by
  have behind := last.behind.placedAll (f := o.mux.arena.fairness) last.ranked
  rw [ran.order] at behind
  refine ⟨ran.settings ▸ last.ranks, ?_, (List.pairwise_cons.mp behind).2⟩
  intro t member
  obtain ⟨u, waits, original⟩ := ran.original (List.mem_cons_of_mem e.task member)
  have ranked : TaskArena.Ranked s.sleepPriority u.original := last.ranked u waits
  rw [original] at ranked
  exact ranked

/-- Every step keeps the sleeps last, unless it ranks them anew. -/
theorem step (last : SleepsLast s o) (sleeps_last : s.SleepsLast) {event : Event} (step : Step o event p)
    (ranks : ∀ settings, event = .settled settings → settings.RanksAs s) : SleepsLast s p := by
  cases event with
  | accepted message e =>
    have accepted : Accepted o message e p := step.effect
    refine last.hand_over accepted.settings accepted.handed accepted.pending ?_
    intro t member
    obtain ⟨sink, -, rfl⟩ := List.mem_map.mp member
    exact last.priorityOf_lt sleeps_last sink
  | ran e => exact last.run step.effect
  | dozed deadline =>
    have dozed : Dozed o deadline p := step.effect
    obtain ⟨seq, handed⟩ := dozed.handed
    refine last.hand_over dozed.settings handed dozed.pending ?_
    intro t member
    rw [List.mem_singleton.mp member]
    exact last.ranks.sleep
  | settled settings =>
    have settled : Settled o settings p := step.effect
    refine ⟨settled.settings ▸ ranks settings rfl, ?_, settled.pending ▸ last.behind⟩
    rw [Mux.tasks, settled.handed, settled.pending]
    exact last.ranked

end SleepsLast

/-! ### Runs -/

variable [Outlets τ]

theorem SleepsLast.answer (sizes : Mux.Sizes B Q) (balanced : o.mux.Balanced [] []) (last : SleepsLast s o)
    (sleeps_last : s.SleepsLast) {request : Request} (fixed : ∀ settings, request = .configure settings → settings.RanksAs s) :
    SleepsLast s (o.answer request).2 := by
  refine (answer_steps sizes balanced request).1.invariant (P := SleepsLast s)
    (A := fun event => ∀ settings, event = .settled settings → settings.RanksAs s)
    (fun ranks step last => last.step sleeps_last step ranks) ?_ last
  rintro event member settings rfl
  rcases settles_of_events member with same | ⟨fairness, -, rfl⟩
  · exact fixed settings same
  · exact ⟨last.ranks.console, last.ranks.wifi, last.ranks.sleep⟩

theorem SleepsLast.answerAll (sizes : Mux.Sizes B Q) (balanced : o.mux.Balanced [] []) (last : SleepsLast s o)
    (sleeps_last : s.SleepsLast) {requests : List Request}
    (fixed : ∀ settings, .configure settings ∈ requests → settings.RanksAs s) : SleepsLast s (answerAll requests o) := by
  induction requests generalizing o with
  | nil => exact last
  | cons request requests ih =>
    refine ih (answer_steps sizes balanced request).2 (last.answer sizes balanced sleeps_last fun settings same => ?_)
      fun settings member => fixed settings (List.mem_cons_of_mem _ member)
    exact fixed settings (same ▸ List.mem_cons_self)

/-- While a request is served the output comes to be like this, and a task may be run next. -/
inductive During (o : Output B L Q τ) : Request → Output B L Q τ → Prop
  | process : During o .process o
  | processAll (count : Nat) : During o .processAll (o.processUpTo count).2
  /-- A message still waits behind some turns, and within the next one some tasks were run. -/
  | emit {relax turns : List Nat} {message : Bytes} {p : Output B L Q τ} (front : turns <+: relax)
      (waits : o.answer (.emit turns message) = (.waiting, p)) (count : Nat) :
      During o (.emit relax message) (p.processUpTo count).2

theorem During.served (sizes : Mux.Sizes B Q) (balanced : o.mux.Balanced [] []) {request : Request}
    (during : o.During request p) : ∃ rans, Served o rans p := by
  cases during with
  | process => exact ⟨[], served_refl balanced⟩
  | processAll count =>
    obtain ⟨rans, served, -⟩ := processUpTo_served balanced count
    exact ⟨rans, served⟩
  | @emit relax turns message p front waits count =>
    obtain ⟨rans, waiting, served, ⟨-, answered⟩ | ⟨e, q, -, answered, -⟩⟩ := emit_steps sizes balanced turns message
    · obtain rfl : waiting = p := congrArg Prod.snd (answered.symm.trans waits)
      obtain ⟨more, later, -⟩ := processUpTo_served served.balanced count
      exact ⟨rans ++ more, served.trans later⟩
    · rw [answered] at waits
      cases waits

/-- Only a sleep sleeps. -/
theorem run_slept {t : Task} (slept : (o.run t).1 = .slept) : ∃ deadline, t.action = .sleepUntil deadline := by
  cases action : t.action with
  | sleepUntil deadline => exact ⟨deadline, rfl⟩
  | send sink buffer =>
    simp only [run, action] at slept
    split at slept
    · cases slept
    · split at slept <;> cases slept

theorem process_slept {t : Task} (processed : o.process = (some ⟨t, .slept⟩, q)) :
    ∃ deadline, t.action = .sleepUntil deadline := by
  unfold process at processed
  split at processed
  · cases processed
  · next handle task mux _ =>
    obtain ⟨same, -⟩ := Prod.mk.inj processed
    obtain ⟨rfl, slept⟩ := Executed.mk.inj (Option.some.inj same)
    exact run_slept slept

/-- Behind a sleep that runs there is no task left. -/
theorem SleepsLast.idle (last : SleepsLast s o) {t : Task} (balanced : o.mux.Balanced [] [])
    (processed : o.process = (some ⟨t, .slept⟩, q)) :
    Step o (.ran ⟨t, .slept⟩) q ∧ q.mux.tasks = [] := by
  obtain ⟨deadline, action⟩ := process_slept processed
  rcases process_step balanced with ⟨-, nothing⟩ | ⟨e, p, processed', step⟩
  · rw [nothing] at processed
    cases processed
  · obtain ⟨same, rfl⟩ := Prod.mk.inj (processed'.symm.trans processed)
    obtain rfl := Option.some.inj same
    refine ⟨step, ?_⟩
    have ran : Ran o ⟨t, .slept⟩ p := step.effect
    obtain ⟨-, awake, -⟩ := ran.slept deadline action
    have behind := last.behind.placedAll (f := o.mux.arena.fairness) last.ranked
    rw [ran.order] at behind
    rw [Mux.tasks, ran.handed, List.nil_append]
    refine List.eq_nil_iff_forall_not_mem.mpr fun u member => ?_
    -- It would be a sleep, and there is one at a time.
    have sleep : u.isSleep = true := (List.pairwise_cons.mp behind).1 u member (by simp [Task.isSleep, action])
    have duty : u.duty = .sleep := by
      cases action' : u.action <;> simp_all [Task.isSleep, Task.duty]
    have waits : p.mux.due .sleep = true := (step.after.mem_iff .sleep).mp (by
      rw [List.append_nil, ← duty]
      exact List.mem_map_of_mem (List.mem_append_right _ member))
    rw [show p.mux.due .sleep = p.mux.sleepPending from rfl, awake] at waits
    contradiction

/-- While sleeps are ranked behind the sinks, whatever the fairness is and was, a sleep is run
    only when every message that was accepted before has been passed to every sink, and
    behind it there is no task and no buffer in use. -/
theorem sleep_runs_last (sizes : Mux.Sizes B Q) (settings : MuxSettings) (sleeps_last : settings.SleepsLast) (outlets : τ)
    (requests : List Request) (fixed : ∀ other, .configure other ∈ requests → other.RanksAs settings) (request : Request) :
    let first : Output B L Q (Tapped τ) := start settings { outlets }
    let o := answerAll requests first
    ∀ p t q, o.During request p → p.process = (some ⟨t, .slept⟩, q) →
      let l := Ledger.ofHistory (history requests first ++ (ranSince o p).map .ran)
      List.Forall₂ (l.Carries L) l.deliveries p.outlets.calls ∧
      (∀ i < l.messages.length, ∀ sink, l.passed.count (i, sink) = 1) ∧
      q.mux.pendingTasks = 0 ∧ q.mux.available = B := by
  intro first o p t q during processed l
  have fresh := balanced_start (L := L) sizes settings ({ outlets } : Tapped τ)
  obtain ⟨steps, balanced⟩ := answerAll_steps sizes fresh requests
  obtain ⟨rans, served⟩ := during.served sizes balanced
  have faithful : Faithful p l := by
    refine (steps.append ?_).keep (P := Faithful) (fun step faithful => faithful.step step)
      (faithful_start sizes settings outlets)
    rw [served.ranSince_eq]
    exact served.steps
  have last : SleepsLast settings p := by
    have last_before : SleepsLast settings o :=
      (sleepsLast_start sizes settings ({ outlets } : Tapped τ)).answerAll sizes fresh sleeps_last fixed
    refine served.steps.invariant (P := SleepsLast settings) (A := fun event => ∀ other, event ≠ .settled other)
      (fun unsettled step last => last.step sleeps_last step fun other same => absurd same (unsettled other)) ?_ last_before
    rintro event member other rfl
    simp at member
  obtain ⟨step, no_tasks⟩ := last.idle served.balanced processed
  obtain ⟨deadline, action⟩ := process_slept processed
  have unchanged : l.enter (.ran ⟨t, .slept⟩) = l := by simp only [Ledger.enter, action]
  have faithful_after : Faithful q l := unchanged ▸ faithful.step step
  obtain ⟨free, laid⟩ := step.after.laid
  refine ⟨faithful.calls, faithful_after.all_passed step.after no_tasks, ?_, (step.after.idle no_tasks).1⟩
  rw [Mux.pendingTasks_eq laid, no_tasks]
  rfl

/-- A sleep is asked for between two messages, and the fairness changes while tasks are pending. -/
def restless : List Request :=
  [.tryEmit [0], .requestSleep (.ofMillis 5), .setFairness (.bounded 1), .tryEmit [1], .process,
    .configure { fairness := .strict }]

def rested : Output 2 2 8 (Tapped (Rehearsal Bench)) :=
  ((answerAll restless (start {} { outlets := { board := {}, wifi := [.error .notConnected] } })).processUpTo 3).2

theorem sleep_runs_last_restless :
    (({} : MuxSettings).SleepsLast ∧ ∀ other, .configure other ∈ restless → other.RanksAs {}) ∧
      ∃ t q, rested.process = (some ⟨t, .slept⟩, q) ∧ q.mux.pendingTasks = 0 ∧ q.mux.available = 2 := by
  have sleeps_last : ({} : MuxSettings).SleepsLast := ⟨by decide, by decide⟩
  have fixed : ∀ other, .configure other ∈ restless → other.RanksAs {} := by
    intro other member
    obtain rfl : other = { fairness := .strict } := by simpa [restless] using member
    exact ⟨rfl, rfl, rfl⟩
  have last := sleep_runs_last (B := 2) (L := 2) (Q := 8) ⟨by decide, ⟨3, rfl⟩, by decide⟩ {} sleeps_last
    ({ board := {}, wifi := [.error .notConnected] } : Rehearsal Bench) restless fixed .processAll
  have slept : rested.process.1.map Executed.outcome = some .slept := by decide +kernel
  obtain ⟨⟨t, outcome⟩, ran, rfl⟩ := Option.map_eq_some_iff.mp slept
  have processed : rested.process = (some ⟨t, .slept⟩, rested.process.2) := Prod.ext ran rfl
  obtain ⟨-, -, idle, free⟩ := last rested t rested.process.2 (.processAll 3) processed
  exact ⟨⟨sleeps_last, fixed⟩, t, rested.process.2, processed, idle, free⟩

end Output
end AirMonitor
