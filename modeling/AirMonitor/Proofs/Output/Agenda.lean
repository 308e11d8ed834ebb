import AirMonitor.Proofs.Output.Layout
import Mathlib.Data.List.DropRight

/-!
What the links of an arena stand for. An agenda has the pending tasks in execution order
and the tasks in flight, each with its slot, and a call changes it as lists are changed
(`Agenda.after`); which slot a new task gets is left open. An arena holds an agenda if its
two chains come to their ends, share out the slots as the agenda does and lead to its
tasks (`Holds`). Every call keeps that (`Holds.perform`), and therefore every run in which
slots are put into order and given back only while they are in flight (`Holds.runAll`).
-/
namespace AirMonitor

/-- What is asked of an arena. -/
inductive ArenaCall
  | alloc (task : Task)
  | insert (handle : UInt16)
  | pop
  | free (handle : UInt16)
  | setFairness (fairness : Fairness)
deriving DecidableEq

/-- The tasks of an arena with their slots. All other slots are free. -/
structure Agenda where
  /-- In execution order. -/
  pending : List (UInt16 × Task)
  /-- Allocated, and not put into order yet or popped already. -/
  inFlight : List (UInt16 × Task)
  fairness : Fairness
deriving DecidableEq

namespace Agenda

def start (fairness : Fairness) : Agenda := ⟨[], [], fairness⟩

/-- The slots that are not free. -/
def taken (g : Agenda) : List UInt16 := g.pending.map Prod.fst ++ g.inFlight.map Prod.fst

/-- The pending tasks that none may pass: all up to the last saturated one. -/
def settled (fairness : Fairness) (pending : List (UInt16 × Task)) : List (UInt16 × Task) :=
  pending.rdropWhile fun entry => !entry.2.isSaturated fairness

/-- The pending tasks behind the last saturated one. -/
def passable (fairness : Fairness) (pending : List (UInt16 × Task)) : List (UInt16 × Task) :=
  pending.rtakeWhile fun entry => !entry.2.isSaturated fairness

/-- Pending tasks with a new one in its place: behind the last saturated one, in front of the
    first there that has a larger priority number, or at the end if there is none. Those behind
    the new one are charged a bypass. -/
def arrange (fairness : Fairness) (new : UInt16 × Task) (pending : List (UInt16 × Task)) : List (UInt16 × Task) :=
  let ahead := (passable fairness pending).takeWhile fun entry => decide (entry.2.priority ≤ new.2.priority)
  let behind := (passable fairness pending).dropWhile fun entry => decide (entry.2.priority ≤ new.2.priority)
  settled fairness pending ++ ahead ++ new :: behind.map (Prod.map id Task.bypass)

/-- Tasks without the one in a slot. -/
def without (handle : UInt16) (entries : List (UInt16 × Task)) : List (UInt16 × Task) := entries.eraseP (handle == ·.1)

/-- The agenda after a call and what it answered: the new task in its slot, or the one that was popped. -/
def after (g : Agenda) (answer : Option (UInt16 × Task)) : ArenaCall → Agenda
  | .alloc _ => { g with inFlight := answer.toList ++ g.inFlight }
  | .insert handle =>
    match g.inFlight.lookup handle with
    | none => g
    | some task =>
      { g with
        pending := arrange g.fairness (handle, task) g.pending
        inFlight := without handle g.inFlight }
  | .pop => { g with pending := g.pending.tail, inFlight := g.pending.head?.toList ++ g.inFlight }
  | .free handle => { g with inFlight := without handle g.inFlight }
  | .setFairness fairness => { g with fairness }

/-- A slot is put into order or given back only while it is in flight. -/
def Allows (g : Agenda) : ArenaCall → Prop
  | .insert handle | .free handle => handle ∈ g.inFlight.map Prod.fst
  | .alloc _ | .pop | .setFairness _ => True

instance (g : Agenda) : DecidablePred g.Allows
  | .insert handle | .free handle => inferInstanceAs (Decidable (handle ∈ _))
  | .alloc _ | .pop | .setFairness _ => inferInstanceAs (Decidable True)

/-- The slots whose tasks a call may change: the one that is allocated, and those of the pending
    tasks when another is put among them. -/
def touched (g : Agenda) (answer : Option (UInt16 × Task)) : ArenaCall → List UInt16
  | .alloc _ => answer.toList.map Prod.fst
  | .insert _ => g.pending.map Prod.fst
  | .pop | .free _ | .setFairness _ => []

/-! ### The task in a slot -/

section
variable {handle : UInt16} {entry : UInt16 × Task} {entries : List (UInt16 × Task)}

theorem lookup_of_mem (member : handle ∈ entries.map Prod.fst) :
    ∃ task, entries.lookup handle = some task ∧ (handle, task) ∈ entries := by
  obtain ⟨entry, inside, rfl⟩ := List.mem_map.mp member
  have found : (entries.lookup entry.1).isSome = true := List.lookup_isSome_iff.mpr ⟨entry, inside, beq_self_eq_true _⟩
  obtain ⟨task, found⟩ := Option.isSome_iff_exists.mp found
  obtain ⟨before, behind, whole, -⟩ := List.lookup_eq_some_iff.mp found
  exact ⟨task, found, by simp [whole]⟩

theorem map_fst_without (handle : UInt16) (entries : List (UInt16 × Task)) :
    (without handle entries).map Prod.fst = (entries.map Prod.fst).erase handle := by
  rw [without, List.erase_eq_eraseP, List.eraseP_map]
  rfl

theorem mem_of_mem_without (member : entry ∈ without handle entries) : entry ∈ entries := List.mem_of_mem_eraseP member

end

/-! ### The place of a new task -/

section
variable {fairness : Fairness} {priority : UInt8} {pending : List (UInt16 × Task)}

theorem staying_unsaturated {rest : List (UInt16 × Task)} (clear : ∀ entry ∈ rest, entry.2.isSaturated fairness = false) :
    TaskArena.staying fairness priority (rest.map Prod.snd) =
      (rest.takeWhile fun entry => decide (entry.2.priority ≤ priority)).length := by
  induction rest with
  | nil => rfl
  | cons entry others ih =>
    have none_saturated : ∀ t ∈ entry.2 :: others.map Prod.snd, t.isSaturated fairness = false := by
      rw [← List.map_cons]
      exact List.forall_mem_map.mpr clear
    rw [List.map_cons, TaskArena.staying, List.takeWhile_cons]
    by_cases larger : priority < entry.2.priority
    · rw [if_pos ⟨larger, none_saturated⟩, decide_eq_false (UInt8.not_le.mpr larger)]
      rfl
    · rw [if_neg fun passed => larger passed.1, decide_eq_true (UInt8.not_lt.mp larger),
        ih fun other member => clear other (List.mem_cons_of_mem _ member)]
      rfl

theorem settled_append_passable (fairness : Fairness) (pending : List (UInt16 × Task)) :
    settled fairness pending ++ passable fairness pending = pending := List.rdropWhile_append_rtakeWhile

theorem saturated_last {entry : UInt16 × Task} (last : entry ∈ (settled fairness pending).getLast?) :
    entry.2.isSaturated fairness = true := by
  obtain ⟨some_entry, rfl⟩ := List.mem_getLast?_eq_getLast last
  simpa [settled] using List.rdropWhile_last_not (fun entry : UInt16 × Task => !entry.2.isSaturated fairness) pending some_entry

theorem unsaturated_passable {entry : UInt16 × Task} (member : entry ∈ passable fairness pending) :
    entry.2.isSaturated fairness = false := by
  simpa using List.mem_rtakeWhile_imp member

/-- A new task stays behind the last saturated one, and from there on behind those that are no
    less urgent than it is. -/
theorem staying_append {front rest : List (UInt16 × Task)}
    (last : ∀ entry ∈ front.getLast?, entry.2.isSaturated fairness = true)
    (clear : ∀ entry ∈ rest, entry.2.isSaturated fairness = false) :
    TaskArena.staying fairness priority ((front ++ rest).map Prod.snd) =
      front.length + (rest.takeWhile fun entry => decide (entry.2.priority ≤ priority)).length := by
  induction front with
  | nil => rw [List.nil_append, staying_unsaturated clear, List.length_nil, Nat.zero_add]
  | cons entry front ih =>
    have held : ¬ ∀ t ∈ entry.2 :: (front ++ rest).map Prod.snd, t.isSaturated fairness = false := by
      intro all_clear
      have final : (entry :: front).getLast (List.cons_ne_nil _ _) ∈ entry :: (front ++ rest) := by
        rw [← List.cons_append]
        exact List.mem_append_left _ (List.getLast_mem _)
      have saturated := last _ (List.getLast?_eq_getLast_of_ne_nil (List.cons_ne_nil _ _))
      rw [← List.map_cons] at all_clear
      rw [all_clear _ (List.mem_map_of_mem final)] at saturated
      cases saturated
    rw [List.cons_append, List.map_cons, TaskArena.staying, if_neg fun passed => held passed.2, ih, List.length_cons]
    · omega
    · intro other final
      apply last
      rw [List.getLast?_cons, Option.mem_def.mp final]
      rfl

/-- The place is the one that `staying` counts. -/
theorem arrange_eq (fairness : Fairness) (new : UInt16 × Task) (pending : List (UInt16 × Task)) :
    arrange fairness new pending =
      pending.take (TaskArena.staying fairness new.2.priority (pending.map Prod.snd)) ++
        new :: (pending.drop (TaskArena.staying fairness new.2.priority (pending.map Prod.snd))).map (Prod.map id Task.bypass) := by
  have whole := settled_append_passable fairness pending
  rw [arrange]
  set front := settled fairness pending
  set rest := passable fairness pending
  have counted : TaskArena.staying fairness new.2.priority (pending.map Prod.snd) =
      (front ++ rest.takeWhile fun entry => decide (entry.2.priority ≤ new.2.priority)).length := by
    rw [← whole, staying_append (fun entry last => saturated_last last) (fun entry member => unsaturated_passable member),
      List.length_append]
  have split : pending =
      (front ++ rest.takeWhile fun entry => decide (entry.2.priority ≤ new.2.priority)) ++
        rest.dropWhile fun entry => decide (entry.2.priority ≤ new.2.priority) := by
    rw [List.append_assoc, List.takeWhile_append_dropWhile, whole]
  rw [counted]
  conv_rhs => rw [split]
  rw [List.take_left, List.drop_left]

end

end Agenda

namespace TaskArena
variable {Q : Nat} {a : TaskArena Q} {g : Agenda} {free : List UInt16}

/-- What a call answers, and the arena after it. -/
def perform (a : TaskArena Q) : ArenaCall → Option (UInt16 × Task) × TaskArena Q
  | .alloc task =>
    match a.alloc? task with
    | none => (none, a)
    | some (handle, b) => (some (handle, task), b)
  | .insert handle => (none, a.insert handle)
  | .pop =>
    match a.pop? with
    | none => (none, a)
    | some (head, b) => (some head, b)
  | .free handle => (none, a.free handle)
  | .setFairness fairness => (none, { a with fairness })

/-- A fresh arena with its agenda. -/
def fresh (fairness : Fairness) : TaskArena Q × Agenda := (ofFairness fairness, .start fairness)

/-- An arena and its agenda after a call. -/
def step (s : TaskArena Q × Agenda) (call : ArenaCall) : TaskArena Q × Agenda :=
  ((s.1.perform call).2, s.2.after (s.1.perform call).1 call)

/-- Every call of a run is allowed when its turn comes. -/
def Allowed : List ArenaCall → TaskArena Q × Agenda → Prop
  | [], _ => True
  | call :: calls, s => s.2.Allows call ∧ Allowed calls (step s call)

instance decidableAllowed : (calls : List ArenaCall) → (s : TaskArena Q × Agenda) → Decidable (Allowed calls s)
  | [], _ => isTrue trivial
  | call :: calls, s =>
    have := decidableAllowed calls (step s call)
    inferInstanceAs (Decidable (_ ∧ _))

/-- The slots of an arena are shared out as an agenda says, and hold its tasks. -/
structure Holds (a : TaskArena Q) (g : Agenda) (free : List UInt16) : Prop where
  layout : Layout a free (g.pending.map Prod.fst) (g.inFlight.map Prod.fst)
  tasks : ∀ entry ∈ g.pending ++ g.inFlight, a.task entry.1 = entry.2
  fairness : a.fairness = g.fairness

theorem holds_fresh (positive : 0 < Q) (small : Q < 65535) (fairness : Fairness) :
    Holds (ofFairness fairness : TaskArena Q) (.start fairness) (allSlots Q) where
  layout := layout_ofFairness positive small fairness
  tasks := by simp [Agenda.start]
  fairness := rfl

namespace Holds

theorem task_of_inFlight (holds : Holds a g free) {entry : UInt16 × Task} (member : entry ∈ g.inFlight) :
    a.task entry.1 = entry.2 := holds.tasks entry (List.mem_append_right _ member)

theorem map_task (holds : Holds a g free) : (g.pending.map Prod.fst).map a.task = g.pending.map Prod.snd := by
  rw [List.map_map]
  exact List.map_congr_left fun entry member => holds.tasks entry (List.mem_append_left _ member)

theorem pending (holds : Holds a g free) : a.pending = g.pending.map Prod.snd := by
  rw [pending_eq, holds.layout.line_eq, holds.map_task]

/-- A new task gets a slot that is free, or there is none. -/
theorem after_alloc (holds : Holds a g free) (task : Task) :
    (free = [] ∧ a.alloc? task = none) ∨
      ∃ handle rest b, free = handle :: rest ∧ a.alloc? task = some (handle, b) ∧
        Holds b { g with inFlight := (handle, task) :: g.inFlight } rest ∧ ∀ k, k ≠ handle → b.task k = a.task k := by
  cases free with
  | nil => exact .inl ⟨rfl, holds.layout.no_alloc task⟩
  | cons handle rest =>
    obtain ⟨b, allocated, layout, tasks, fair⟩ := holds.layout.after_alloc task
    have others : ∀ k, k ≠ handle → b.task k = a.task k := fun k other => by rw [tasks, if_neg other]
    refine .inr ⟨handle, rest, b, rfl, allocated, ⟨layout, ?_, fair.trans holds.fairness⟩, others⟩
    have apart := (List.nodup_cons.mp holds.layout.distinct).1
    have old : ∀ entry ∈ g.pending ++ g.inFlight, b.task entry.1 = entry.2 := by
      intro entry member
      rw [others entry.1, holds.tasks entry member]
      rintro rfl
      apply apart
      rw [← List.map_append]
      exact List.mem_append_right _ (List.mem_map_of_mem member)
    intro entry member
    rcases List.mem_append.mp member with pending | inFlight
    · exact old entry (List.mem_append_left _ pending)
    · rcases List.mem_cons.mp inFlight with rfl | earlier
      · rw [tasks, if_pos rfl]
      · exact old entry (List.mem_append_right _ earlier)

/-- The first pending task is popped and in flight then, or there is none. -/
theorem after_pop (holds : Holds a g free) :
    (g.pending = [] ∧ a.pop? = none) ∨
      ∃ head rest b, g.pending = head :: rest ∧ a.pop? = some (head, b) ∧
        Holds b { g with pending := rest, inFlight := head :: g.inFlight } free ∧ ∀ k, b.task k = a.task k := by
  obtain ⟨pending, inFlight, fairness⟩ := g
  cases pending with
  | nil => exact .inl ⟨rfl, holds.layout.no_pop⟩
  | cons head rest =>
    obtain ⟨b, popped, layout, tasks, fair⟩ := holds.layout.after_pop
    rw [holds.tasks head (by simp)] at popped
    refine .inr ⟨head, rest, b, rfl, popped, ⟨layout, ?_, fair.trans holds.fairness⟩, tasks⟩
    intro entry member
    rw [tasks]
    exact holds.tasks entry (List.perm_middle.mem_iff.mp member)

/-- A slot that is given back is free, and no task changes. -/
theorem after_free (holds : Holds a g free) {handle : UInt16} (member : handle ∈ g.inFlight.map Prod.fst) :
    Holds (a.free handle) { g with inFlight := Agenda.without handle g.inFlight } (handle :: free) ∧
      ∀ k, (a.free handle).task k = a.task k := by
  obtain ⟨layout, tasks, fair⟩ := holds.layout.after_free member
  refine ⟨⟨?_, ?_, fair.trans holds.fairness⟩, tasks⟩
  · rw [Agenda.map_fst_without]
    exact layout
  · intro entry inside
    rw [tasks]
    apply holds.tasks
    rcases List.mem_append.mp inside with pending | inFlight
    · exact List.mem_append_left _ pending
    · exact List.mem_append_right _ (Agenda.mem_of_mem_without inFlight)

/-- The place of a task in flight among the slots of the pending tasks is that among the tasks. -/
theorem kept_and_passed (holds : Holds a g free) {entry : UInt16 × Task} (member : entry ∈ g.inFlight) :
    let n := staying g.fairness entry.2.priority (g.pending.map Prod.snd)
    Layout.kept a (g.pending.map Prod.fst) entry.1 = (g.pending.take n).map Prod.fst ∧
      Layout.passed a (g.pending.map Prod.fst) entry.1 = (g.pending.drop n).map Prod.fst := by
  intro n
  rw [Layout.kept, Layout.passed, holds.task_of_inFlight member, holds.fairness, holds.map_task, List.map_take, List.map_drop]
  exact ⟨rfl, rfl⟩

/-- When the tasks from a place on are charged, all pending tasks are as an agenda has them then. -/
theorem tasks_of_charged (holds : Holds a g free) {b : TaskArena Q} {n : Nat}
    (tasks : ∀ k, b.task k = if k ∈ (g.pending.drop n).map Prod.fst then (a.task k).bypass else a.task k) :
    (∀ entry ∈ g.pending.take n, b.task entry.1 = entry.2) ∧
      ∀ entry ∈ (g.pending.drop n).map (Prod.map id Task.bypass), b.task entry.1 = entry.2 := by
  constructor
  · intro entry ahead
    have distinct := holds.layout.nodup_pending
    rw [← List.take_append_drop n g.pending, List.map_append] at distinct
    have stays : entry.1 ∉ (g.pending.drop n).map Prod.fst := fun passed =>
      (List.nodup_append.mp distinct).2.2 entry.1 (List.mem_map_of_mem ahead) entry.1 passed rfl
    rw [tasks, if_neg stays, holds.tasks entry (List.mem_append_left _ (List.mem_of_mem_take ahead))]
  · intro entry charged
    obtain ⟨old, passed, rfl⟩ := List.mem_map.mp charged
    have waited := holds.tasks old (List.mem_append_left _ (List.mem_of_mem_drop passed))
    rw [Prod.map_fst, Prod.map_snd, id_eq, tasks, if_pos (List.mem_map_of_mem passed), waited]

/-- A task that is put into order gets its place, and those behind it are charged. -/
theorem after_insert (holds : Holds a g free) {handle : UInt16} {task : Task} (member : (handle, task) ∈ g.inFlight) :
    Holds (a.insert handle)
        { g with
          pending := Agenda.arrange g.fairness (handle, task) g.pending
          inFlight := Agenda.without handle g.inFlight } free ∧
      ∀ k ∉ g.pending.map Prod.fst, (a.insert handle).task k = a.task k := by
  have among : handle ∈ g.inFlight.map Prod.fst := List.mem_map_of_mem member
  obtain ⟨layout, tasks, fair⟩ := holds.layout.after_insert among
  obtain ⟨kept, passed⟩ := holds.kept_and_passed member
  rw [kept, passed] at layout
  rw [passed] at tasks
  rw [Agenda.arrange_eq]
  set n := staying g.fairness task.priority (g.pending.map Prod.snd)
  obtain ⟨ahead, behind⟩ := holds.tasks_of_charged tasks
  have others : ∀ k ∉ g.pending.map Prod.fst, (a.insert handle).task k = a.task k := by
    intro k outside
    rw [tasks, if_neg]
    intro charged
    rw [List.map_drop] at charged
    exact outside (List.mem_of_mem_drop charged)
  have unmoved : ∀ entry ∈ g.inFlight, (a.insert handle).task entry.1 = entry.2 := by
    intro entry inFlight
    rw [others entry.1 (holds.layout.not_mem_pending (List.mem_map_of_mem inFlight)), holds.task_of_inFlight inFlight]
  refine ⟨⟨?_, ?_, fair.trans holds.fairness⟩, others⟩
  · rw [Agenda.map_fst_without, List.map_append, List.map_cons, List.map_map]
    exact layout
  · intro entry inside
    rcases List.mem_append.mp inside with arranged | inFlight
    · rcases List.mem_append.mp arranged with kept | from_new
      · exact ahead entry kept
      · rcases List.mem_cons.mp from_new with rfl | charged
        · exact unmoved (handle, task) member
        · exact behind entry charged
    · exact unmoved entry (Agenda.mem_of_mem_without inFlight)

/-- A call that is allowed keeps an arena in step with its agenda, and changes no other tasks
    than those that it touches. -/
theorem perform (holds : Holds a g free) {call : ArenaCall} (allowed : g.Allows call) :
    (∃ free, Holds (a.perform call).2 (g.after (a.perform call).1 call) free) ∧
      ∀ k ∉ g.touched (a.perform call).1 call, (a.perform call).2.task k = a.task k := by
  cases call with
  | alloc task =>
    rcases holds.after_alloc task with ⟨-, refused⟩ | ⟨handle, rest, b, -, allocated, after, others⟩
    · rw [TaskArena.perform, refused]
      exact ⟨⟨free, holds⟩, fun _ _ => rfl⟩
    · rw [TaskArena.perform, allocated]
      exact ⟨⟨rest, after⟩, fun k untouched => others k (List.ne_of_not_mem_cons untouched)⟩
  | insert handle =>
    obtain ⟨task, found, member⟩ := Agenda.lookup_of_mem allowed
    rw [Agenda.after, found]
    obtain ⟨after, others⟩ := holds.after_insert member
    exact ⟨⟨free, after⟩, others⟩
  | pop =>
    rcases holds.after_pop with ⟨none_pending, nothing⟩ | ⟨head, rest, b, pending, popped, after, same⟩
    · have stays : g.after none .pop = g := by
        obtain ⟨_, _, _⟩ := g
        cases none_pending
        rfl
      rw [TaskArena.perform, nothing, stays]
      exact ⟨⟨free, holds⟩, fun _ _ => rfl⟩
    · rw [TaskArena.perform, popped, Agenda.after, pending]
      exact ⟨⟨free, after⟩, fun k _ => same k⟩
  | free handle =>
    obtain ⟨after, same⟩ := holds.after_free allowed
    exact ⟨⟨handle :: free, after⟩, fun k _ => same k⟩
  | setFairness fairness =>
    exact ⟨⟨free, holds.layout.with_fairness fairness, holds.tasks, rfl⟩, fun _ _ => rfl⟩

/-- An arena stays in step with its agenda in every run of calls that are allowed. -/
theorem runAll (calls : List ArenaCall) {s : TaskArena Q × Agenda} (holds : Holds s.1 s.2 free)
    (allowed : Allowed calls s) : ∃ free, Holds (calls.foldl step s).1 (calls.foldl step s).2 free := by
  induction calls generalizing s free with
  | nil => exact ⟨free, holds⟩
  | cons call calls ih =>
    obtain ⟨⟨_, after⟩, -⟩ := holds.perform allowed.1
    exact ih after allowed.2

/-- The slots that are taken are all slots just if none is free. -/
theorem free_eq_nil (holds : Holds a g free) : free = [] ↔ g.taken.length = Q := by
  have count := holds.layout.length_eq
  rw [← List.length_eq_zero_iff, Agenda.taken, List.length_append]
  omega

theorem alloc?_eq_none (holds : Holds a g free) (task : Task) : a.alloc? task = none ↔ g.taken.length = Q := by
  rw [← holds.free_eq_nil]
  rcases holds.after_alloc task with ⟨none_free, refused⟩ | ⟨handle, rest, b, some_free, allocated, -⟩
  · simp [none_free, refused]
  · simp [some_free, allocated]

/-- A slot that is handed out was free. -/
theorem alloc?_unused (holds : Holds a g free) {task : Task} {handle : UInt16} {b : TaskArena Q}
    (allocated : a.alloc? task = some (handle, b)) : handle.toNat < Q ∧ handle ∉ g.taken := by
  rcases holds.after_alloc task with ⟨-, refused⟩ | ⟨handle', rest, b', rfl, allocated', -⟩
  · rw [refused] at allocated
    cases allocated
  · rw [allocated'] at allocated
    obtain ⟨rfl, rfl⟩ := Prod.mk.inj (Option.some.inj allocated)
    refine ⟨holds.layout.inside (by simp), ?_⟩
    intro used
    exact (List.nodup_cons.mp holds.layout.distinct).1 (List.mem_append_right _ used)

theorem head?_pop (holds : Holds a g free) : a.pop?.map Prod.fst = g.pending.head? := by
  rcases holds.after_pop with ⟨none_pending, nothing⟩ | ⟨head, rest, b, pending, popped, -⟩
  · rw [nothing, none_pending]
    rfl
  · rw [popped, pending]
    rfl

end Holds

/-- In every run of calls in which slots are put into order and given back only while they are in
    flight, the free chain and the pending chain come to their ends, no slot is in both or twice
    in one, and with the slots in flight they are all slots. The counts are their lengths. The
    pending tasks are those of the agenda, in its order, and so are the tasks in flight. A task
    is refused a slot just if all are taken, and what it gets is none of these. What is popped
    heads the agenda. No call changes a task that it does not touch. -/
theorem holds_agenda (positive : 0 < Q) (small : Q < 65535) (fairness : Fairness) (calls : List ArenaCall)
    (allowed : Allowed calls (fresh fairness : TaskArena Q × Agenda)) :
    let s : TaskArena Q × Agenda := calls.foldl step (fresh fairness)
    let a := s.1
    let g := s.2
    (∃ free, Path a.next a.freeHead free noSlot ∧ Path a.next a.pendingHead (g.pending.map Prod.fst) noSlot ∧
      (free ++ g.taken).Nodup ∧ (∀ handle, handle ∈ free ++ g.taken ↔ handle.toNat < Q) ∧
      a.freeCount = free.length ∧ a.pendingCount = g.pending.length ∧ free.length + g.taken.length = Q) ∧
    a.pending = g.pending.map Prod.snd ∧ (∀ entry ∈ g.inFlight, a.task entry.1 = entry.2) ∧
    (∀ task, (a.alloc? task = none ↔ g.taken.length = Q) ∧
      ∀ handle b, a.alloc? task = some (handle, b) → handle.toNat < Q ∧ handle ∉ g.taken) ∧
    a.pop?.map Prod.fst = g.pending.head? ∧
    ∀ call, g.Allows call →
      ∀ k ∉ g.touched (a.perform call).1 call, (a.perform call).2.task k = a.task k := by
  intro s a g
  obtain ⟨free, holds⟩ : ∃ free, Holds a g free := (holds_fresh positive small fairness).runAll calls allowed
  have layout := holds.layout
  refine ⟨⟨free, layout.free_path, layout.pending_path, layout.distinct, ?_, layout.freeCount, ?_, ?_⟩,
    holds.pending, fun _ => holds.task_of_inFlight, ?_, holds.head?_pop, fun _ allowed => (holds.perform allowed).2⟩
  · intro handle
    exact layout.shares.mem_iff.trans (mem_allSlots small handle)
  · rw [layout.pendingCount, List.length_map]
  · rw [Agenda.taken, List.length_append]
    exact layout.length_eq
  · exact fun task => ⟨holds.alloc?_eq_none task, fun _ _ => holds.alloc?_unused⟩

/-- A task for the console. -/
def consoleTask (seq : UInt32) : Task := { action := .send .console 0, priority := 4, seq }

/-- A task for the link. -/
def wifiTask (seq : UInt32) : Task := { action := .send .wifi 0, priority := 3, seq }

/-- A more urgent task passes a task for the console and a sleep, the next one only the sleep. An
    allocation is refused. Later a slot is used again, and given back without its task ever pending. -/
def passingOnce : List ArenaCall :=
  [.alloc (consoleTask 0), .alloc { action := .sleepUntil .boot, priority := 10, seq := 1 }, .alloc (wifiTask 2),
    .insert 0, .insert 1, .insert 2, .alloc (wifiTask 3), .alloc (wifiTask 4), .insert 3, .setFairness .strict, .pop,
    .free 2, .alloc (wifiTask 5), .free 2, .pop]

theorem holds_agenda_passingOnce :
    (0 < 4 ∧ 4 < 65535 ∧ Allowed passingOnce (fresh (.bounded 1) : TaskArena 4 × Agenda)) ∧
      let a : TaskArena 4 := (passingOnce.foldl step (fresh (.bounded 1))).1
      a.pending = [wifiTask 3, { action := .sleepUntil .boot, priority := 10, seq := 1 }] ∧
        a.task 0 = { consoleTask 0 with bypassed := 1 } ∧ a.pop?.map Prod.fst = some (3, wifiTask 3) ∧
        a.freeCount = 1 ∧ ∃ b, a.alloc? (wifiTask 6) = some (2, b) := by
  have allowed : Allowed passingOnce (fresh (.bounded 1) : TaskArena 4 × Agenda) := by decide +kernel
  have law := holds_agenda (by decide) (by decide) (.bounded 1) passingOnce allowed
  have agenda : (passingOnce.foldl step (fresh (.bounded 1) : TaskArena 4 × Agenda)).2 =
      ⟨[(3, wifiTask 3), (1, { action := .sleepUntil .boot, priority := 10, seq := 1 })],
        [(0, { consoleTask 0 with bypassed := 1 })], .strict⟩ := by decide +kernel
  refine ⟨⟨by decide, by decide, allowed⟩, ?_⟩
  generalize passingOnce.foldl step (fresh (.bounded 1) : TaskArena 4 × Agenda) = s at law agenda ⊢
  obtain ⟨a, g⟩ := s
  obtain rfl : g = _ := agenda
  obtain ⟨⟨free, -, -, -, -, freeCount, -, count⟩, pending, inFlight, allocations, popped, -⟩ := law
  refine ⟨pending, inFlight _ (List.mem_singleton_self _), popped, ?_, ?_⟩
  · have three_taken : free.length + 3 = 1 + 3 := count
    rw [freeCount]
    exact Nat.add_right_cancel three_taken
  · obtain ⟨refused, unused⟩ := allocations (wifiTask 6)
    have room : a.alloc? (wifiTask 6) ≠ none := fun full => absurd (refused.mp full) (show 3 ≠ 4 by decide)
    obtain ⟨⟨handle, b⟩, allocated⟩ := Option.ne_none_iff_exists'.mp room
    obtain ⟨inside, apart⟩ : handle.toNat < 4 ∧ handle ∉ [3, 1, 0] := unused handle b allocated
    have last : handle = 2 := by
      simp only [List.mem_cons, List.not_mem_nil, or_false, not_or, ← UInt16.toNat_inj, UInt16.reduceToNat] at apart
      exact UInt16.toNat_inj.mp (show handle.toNat = 2 by omega)
    exact ⟨b, last ▸ allocated⟩

end TaskArena
end AirMonitor
