import AirMonitor.Proofs.Output.Layout
import Mathlib.Logic.Function.Basic

/-!
An arena and those who use it. A usage remembers who holds which slot, and the tasks
that became pending (`arrivals`) and were popped (`departures`); arrivals are numbered
in order, which tells apart the tasks that use one slot after another. Whatever the
users do within their rights, each move leaves the pending tasks as they are, or puts
one more into order, or takes the first (`Sound.follows`).
-/
namespace AirMonitor

/-- What a user does with an arena. -/
inductive Move
  | alloc (action : Action) (priority : UInt8) (seq : UInt32)
  | insert (handle : UInt16)
  | pop
  | free (handle : UInt16)
  | setFairness (fairness : Fairness)
deriving DecidableEq

/-- A task that became pending. -/
structure Arrival where
  handle : UInt16
  /-- The tasks that it was put behind. -/
  ahead : Nat
  /-- The tasks popped before it came. -/
  departed : Nat
deriving DecidableEq

/-- A task that was popped, and the number of its arrival. -/
structure Departure where
  number : Nat
  task : Task
deriving DecidableEq

structure Usage (Q : Nat) where
  arena : TaskArena Q
  /-- The slots allocated for tasks that are not yet inserted. -/
  drawn : List UInt16 := []
  /-- The slots of popped tasks that are not yet given back. -/
  taken : List UInt16 := []
  arrivals : List Arrival := []
  departures : List Departure := []
  /-- The number of the last arrival in a slot. -/
  number : UInt16 → Nat := fun _ => 0

/-- The slots ahead of one in a line. -/
def front (handle : UInt16) (line : List UInt16) : List UInt16 := line.takeWhile (· ≠ handle)

theorem mem_of_front {handle k : UInt16} {line : List UInt16} (ahead : k ∈ front handle line) : k ∈ line :=
  List.takeWhile_subset _ ahead

theorem front_append_left {handle : UInt16} {l : List UInt16} (member : handle ∈ l) (r : List UInt16) :
    front handle (l ++ r) = front handle l := by
  induction l with
  | nil => simp at member
  | cons first l ih =>
    by_cases same : first = handle
    · simp [front, same]
    · have later : handle ∈ l := (List.mem_cons.mp member).resolve_left (Ne.symm same)
      simpa [front, same] using ih later

theorem front_append_right {handle : UInt16} {l : List UInt16} (apart : handle ∉ l) (r : List UInt16) :
    front handle (l ++ r) = l ++ front handle r := by
  have all : ∀ k ∈ l, decide (k ≠ handle) = true := by
    intro k member
    simp only [ne_eq, decide_not, Bool.not_eq_eq_eq_not, Bool.not_true, decide_eq_false_iff_not]
    exact fun same => apart (same ▸ member)
  exact List.takeWhile_append_of_pos all

@[simp] theorem front_cons_self (handle : UInt16) (l : List UInt16) : front handle (handle :: l) = [] := by
  simp [front]

theorem front_cons_of_ne {handle first : UInt16} (other : first ≠ handle) (l : List UInt16) :
    front handle (first :: l) = first :: front handle l := by
  simp [front, other]

/-- What is ahead of a slot whose place in the line is known. -/
theorem front_eq {handle : UInt16} {before after : List UInt16} (distinct : (before ++ handle :: after).Nodup) :
    front handle (before ++ handle :: after) = before := by
  have apart : handle ∉ before := fun member => (List.nodup_append.mp distinct).2.2 handle member handle (by simp) rfl
  rw [front_append_right apart, front_cons_self, List.append_nil]

namespace Usage
variable {Q : Nat}

def ofFairness (fairness : Fairness) : Usage Q := { arena := .ofFairness fairness }

/-- The usage after a move; `none` if the user had no right to it. A slot may be
    inserted once it is allocated, and given back while it is held. -/
def step? (u : Usage Q) : Move → Option (Usage Q)
  | .alloc action priority seq =>
    match u.arena.alloc? { action, priority, seq } with
    | none => some u
    | some (handle, arena) => some { u with arena, drawn := handle :: u.drawn }
  | .insert handle =>
    if handle ∈ u.drawn then
      let arena := u.arena.insert handle
      some { u with
        arena, drawn := u.drawn.erase handle
        arrivals := u.arrivals ++ [⟨handle, arena.line.idxOf handle, u.departures.length⟩]
        number := Function.update u.number handle u.arrivals.length }
    else none
  | .pop =>
    match u.arena.pop? with
    | none => some u
    | some ((handle, task), arena) =>
      some { u with arena, taken := handle :: u.taken, departures := u.departures ++ [⟨u.number handle, task⟩] }
  | .free handle =>
    if handle ∈ u.drawn then some { u with arena := u.arena.free handle, drawn := u.drawn.erase handle }
    else if handle ∈ u.taken then some { u with arena := u.arena.free handle, taken := u.taken.erase handle }
    else none
  | .setFairness fairness => some { u with arena := { u.arena with fairness } }

def run? : List Move → Usage Q → Option (Usage Q)
  | [], u => some u
  | move :: moves, u => (u.step? move).bind (run? moves)

/-- The pending tasks in the order in which they arrived. -/
def waiting (u : Usage Q) : List UInt16 :=
  ((List.range u.arrivals.length).filter (· ∉ u.departures.map (·.number))).filterMap fun i =>
    u.arrivals[i]?.map (·.handle)

/-- Every slot is accounted for, tasks start without bypasses, and every arrival is
    pending or has departed. -/
structure Sound (u : Usage Q) : Prop where
  laid : ∃ free, TaskArena.Layout u.arena free u.arena.line (u.drawn ++ u.taken)
  fresh : ∀ handle ∈ u.drawn, (u.arena.task handle).bypassed = 0
  numbered : (u.arena.line.map u.number ++ u.departures.map (·.number)).Perm (List.range u.arrivals.length)
  arrived : ∀ handle ∈ u.arena.line, u.arrivals[u.number handle]?.map (·.handle) = some handle

theorem sound_ofFairness (positive : 0 < Q) (small : Q < 65535) (fairness : Fairness) :
    (ofFairness fairness : Usage Q).Sound := by
  have laid := TaskArena.layout_ofFairness positive small fairness
  have line_eq : (ofFairness fairness : Usage Q).arena.line = [] := laid.line_eq
  refine ⟨⟨TaskArena.allSlots Q, ?_⟩, ?_, ?_, ?_⟩
  · rw [line_eq]
    exact laid
  · simp [ofFairness]
  · rw [line_eq]
    simp [ofFairness]
  · simp [line_eq]

structure Quiet (u v : Usage Q) : Prop where
  line : v.arena.line = u.arena.line
  tasks : ∀ k ∈ u.arena.line, v.arena.task k = u.arena.task k
  arrivals : v.arrivals = u.arrivals
  departures : v.departures = u.departures
  number : v.number = u.number

/-- A new task is put between those it stays behind and those it passes. -/
structure Arrives (u v : Usage Q) (handle : UInt16) (before after : List UInt16) : Prop where
  old : u.arena.line = before ++ after
  new : handle ∉ u.arena.line
  line : v.arena.line = before ++ handle :: after
  start : (u.arena.task handle).bypassed = 0
  tasks : ∀ k, v.arena.task k = if k ∈ after then (u.arena.task k).bypass else u.arena.task k
  unsaturated : ∀ k ∈ after, (u.arena.task k).isSaturated u.arena.fairness = false
  first_passed : ∀ k ∈ after.head?, (u.arena.task handle).priority < (u.arena.task k).priority
  held : ∀ pre k post, before = pre ++ k :: post → (u.arena.task handle).priority < (u.arena.task k).priority →
    ∃ s ∈ k :: post, (u.arena.task s).isSaturated u.arena.fairness = true
  arrivals : v.arrivals = u.arrivals ++ [⟨handle, before.length, u.departures.length⟩]
  departures : v.departures = u.departures
  number : v.number = Function.update u.number handle u.arrivals.length

/-- The first task leaves. -/
structure Departs (u v : Usage Q) (handle : UInt16) : Prop where
  line : u.arena.line = handle :: v.arena.line
  tasks : ∀ k, v.arena.task k = u.arena.task k
  arrivals : v.arrivals = u.arrivals
  departures : v.departures = u.departures ++ [⟨u.number handle, u.arena.task handle⟩]
  number : v.number = u.number

/-- What a move may do to the pending tasks. -/
inductive Change (u v : Usage Q) : Prop
  | quiet (quiet : Quiet u v)
  | arrive (handle : UInt16) (before after : List UInt16) (arrives : Arrives u v handle before after)
  | depart (handle : UInt16) (departs : Departs u v handle)

/-- The fairness after a move. -/
def fairnessAfter : Move → Fairness → Fairness
  | .setFairness fairness, _ => fairness
  | _, fairness => fairness

/-- A move keeps the slots accounted for, and is one of the changes. -/
structure Follows (move : Move) (u v : Usage Q) : Prop where
  laid : ∃ free, TaskArena.Layout v.arena free v.arena.line (v.drawn ++ v.taken)
  fresh : ∀ handle ∈ v.drawn, (v.arena.task handle).bypassed = 0
  change : Change u v
  fairness : v.arena.fairness = fairnessAfter move u.arena.fairness

variable {u v : Usage Q}

theorem Sound.follows_refl (sound : u.Sound) {move : Move} (keeps : fairnessAfter move u.arena.fairness = u.arena.fairness) :
    Follows move u u :=
  ⟨sound.laid, sound.fresh, .quiet ⟨rfl, fun _ _ => rfl, rfl, rfl, rfl⟩, keeps.symm⟩

theorem Sound.alloc (sound : u.Sound) {action : Action} {priority : UInt8} {seq : UInt32}
    (moved : u.step? (.alloc action priority seq) = some v) : Follows (.alloc action priority seq) u v := by
  obtain ⟨free, laid⟩ := sound.laid
  cases free with
  | nil =>
    simp only [step?, laid.no_alloc, Option.some.injEq] at moved
    subst moved
    exact sound.follows_refl rfl
  | cons handle free =>
    obtain ⟨b, taken, laid', tasks, fairness⟩ := laid.after_alloc { action, priority, seq }
    simp only [step?, taken, Option.some.injEq] at moved
    subst moved
    have apart : handle ∉ free ++ (u.arena.line ++ (u.drawn ++ u.taken)) := (List.nodup_cons.mp laid.distinct).1
    have line_eq : b.line = u.arena.line := laid'.line_eq
    refine ⟨⟨free, ?_⟩, ?_, .quiet ⟨line_eq, ?_, rfl, rfl, rfl⟩, fairness⟩
    · rw [line_eq]
      exact laid'
    · intro k member
      simp only [tasks]
      split
      · rfl
      · next other => exact sound.fresh k (by simpa [other] using member)
    · intro k member
      have other : k ≠ handle := fun same => apart (by simp [← same, member])
      simp [tasks, other]

theorem Sound.insert (sound : u.Sound) {handle : UInt16} (moved : u.step? (.insert handle) = some v) :
    Follows (.insert handle) u v := by
  obtain ⟨free, laid⟩ := sound.laid
  simp only [step?] at moved
  split at moved
  case isFalse => simp at moved
  case isTrue member =>
    rw [Option.some.injEq] at moved
    subst moved
    obtain ⟨laid', tasks, fairness⟩ := laid.after_insert (List.mem_append_left u.taken member)
    rw [List.erase_append_left _ member] at laid'
    have apart : handle ∉ u.arena.line := laid.not_mem_pending (by simp [member])
    have whole := TaskArena.Layout.kept_append_passed u.arena u.arena.line handle
    have line_eq := laid'.line_eq
    have front : handle ∉ TaskArena.Layout.kept u.arena u.arena.line handle := by
      intro inside
      exact apart (whole ▸ List.mem_append_left _ inside)
    refine ⟨⟨free, ?_⟩, ?_, .arrive handle _ _ ⟨whole.symm, apart, line_eq, sound.fresh handle member, tasks, ?_, ?_,
      ?_, ?_, rfl, rfl⟩, fairness⟩
    · simp only [line_eq]
      exact laid'
    · intro k other
      have held : k ∈ u.drawn := List.mem_of_mem_erase other
      have away : k ∉ TaskArena.Layout.passed u.arena u.arena.line handle := by
        intro inside
        exact laid.not_mem_pending (by simp [held]) (whole ▸ List.mem_append_right _ inside)
      rw [tasks, if_neg away]
      exact sound.fresh k held
    · exact fun k inside => TaskArena.Layout.unsaturated_of_passed inside
    · exact fun k first => TaskArena.Layout.lt_of_head_passed first
    · exact fun pre k post split_at larger => TaskArena.Layout.held_of_kept split_at larger
    · simp [line_eq, List.idxOf_append_of_notMem front]

theorem Sound.pop (sound : u.Sound) (moved : u.step? .pop = some v) : Follows .pop u v := by
  obtain ⟨free, laid⟩ := sound.laid
  rcases line : u.arena.line with _ | ⟨handle, rest⟩
  · rw [line] at laid
    simp only [step?, laid.no_pop, Option.some.injEq] at moved
    subst moved
    exact sound.follows_refl rfl
  · rw [line] at laid
    obtain ⟨b, popped, laid', tasks, fairness⟩ := laid.after_pop
    simp only [step?, popped, Option.some.injEq] at moved
    subst moved
    have line_eq : b.line = rest := laid'.line_eq
    refine ⟨⟨free, ?_⟩, ?_, .depart handle ⟨?_, tasks, rfl, rfl, rfl⟩, fairness⟩
    · rw [line_eq]
      exact laid'.held_perm List.perm_middle.symm
    · intro k member
      simp only [tasks]
      exact sound.fresh k member
    · rw [line, line_eq]

theorem Sound.free (sound : u.Sound) {handle : UInt16} (moved : u.step? (.free handle) = some v) :
    Follows (.free handle) u v := by
  obtain ⟨free, laid⟩ := sound.laid
  simp only [step?] at moved
  split at moved
  case isTrue member =>
    rw [Option.some.injEq] at moved
    subst moved
    obtain ⟨laid', tasks, fairness⟩ := laid.after_free (List.mem_append_left u.taken member)
    rw [List.erase_append_left _ member] at laid'
    have line_eq := laid'.line_eq
    refine ⟨⟨handle :: free, ?_⟩, ?_, .quiet ⟨line_eq, fun k _ => tasks k, rfl, rfl, rfl⟩, fairness⟩
    · simp only [line_eq]
      exact laid'
    · intro k other
      simp only [tasks]
      exact sound.fresh k (List.mem_of_mem_erase other)
  case isFalse notDrawn =>
    split at moved
    case isFalse => simp at moved
    case isTrue member =>
      rw [Option.some.injEq] at moved
      subst moved
      obtain ⟨laid', tasks, fairness⟩ := laid.after_free (List.mem_append_right u.drawn member)
      rw [List.erase_append_right _ notDrawn] at laid'
      have line_eq := laid'.line_eq
      refine ⟨⟨handle :: free, ?_⟩, ?_, .quiet ⟨line_eq, fun k _ => tasks k, rfl, rfl, rfl⟩, fairness⟩
      · simp only [line_eq]
        exact laid'
      · intro k other
        simp only [tasks]
        exact sound.fresh k other

theorem Sound.follows (sound : u.Sound) {move : Move} (moved : u.step? move = some v) : Follows move u v := by
  cases move with
  | alloc action priority seq => exact sound.alloc moved
  | insert handle => exact sound.insert moved
  | pop => exact sound.pop moved
  | free handle => exact sound.free moved
  | setFairness fairness =>
    simp only [step?, Option.some.injEq] at moved
    subst moved
    obtain ⟨free, laid⟩ := sound.laid
    have laid' := laid.with_fairness fairness
    have line_eq := laid'.line_eq
    refine ⟨⟨free, ?_⟩, sound.fresh, .quiet ⟨line_eq, fun _ _ => rfl, rfl, rfl, rfl⟩, rfl⟩
    simp only [line_eq]
    exact laid'

/-! ### Numbers -/

theorem Sound.nodup_line (sound : u.Sound) : u.arena.line.Nodup :=
  sound.laid.choose_spec.nodup_pending

theorem Sound.nodup_numbers (sound : u.Sound) :
    (u.arena.line.map u.number ++ u.departures.map (·.number)).Nodup :=
  sound.numbered.nodup_iff.mpr List.nodup_range

theorem Sound.number_lt (sound : u.Sound) {k : UInt16} (pending : k ∈ u.arena.line) : u.number k < u.arrivals.length := by
  have member : u.number k ∈ List.range u.arrivals.length :=
    sound.numbered.mem_iff.mp (List.mem_append_left _ (List.mem_map_of_mem pending))
  exact List.mem_range.mp member

theorem Sound.departed_lt (sound : u.Sound) {d : Departure} (departed : d ∈ u.departures) :
    d.number < u.arrivals.length := by
  have member : d.number ∈ List.range u.arrivals.length :=
    sound.numbered.mem_iff.mp (List.mem_append_right _ (List.mem_map_of_mem departed))
  exact List.mem_range.mp member

/-! ### Pending tasks before and after a change -/

section arrives
variable {handle : UInt16} {before after : List UInt16} (arrives : Arrives u v handle before after)
include arrives

theorem Arrives.ne {k : UInt16} (pending : k ∈ u.arena.line) : k ≠ handle :=
  fun same => arrives.new (same ▸ pending)

theorem Arrives.new_or_old {k : UInt16} (pending : k ∈ v.arena.line) : k = handle ∨ k ∈ u.arena.line := by
  rw [arrives.line] at pending
  rw [arrives.old]
  simpa [or_left_comm] using pending

@[simp] theorem Arrives.number_new : v.number handle = u.arrivals.length := by
  rw [arrives.number, Function.update_self]

theorem Arrives.number_old {k : UInt16} (pending : k ∈ u.arena.line) : v.number k = u.number k := by
  rw [arrives.number, Function.update_of_ne (arrives.ne pending)]

theorem Arrives.map_number {l : List UInt16} (pending : ∀ k ∈ l, k ∈ u.arena.line) : l.map v.number = l.map u.number :=
  List.map_congr_left fun k member => arrives.number_old (pending k member)

theorem Arrives.pending_before {k : UInt16} (member : k ∈ before) : k ∈ u.arena.line := by
  rw [arrives.old]
  exact List.mem_append_left _ member

theorem Arrives.pending_after {k : UInt16} (member : k ∈ after) : k ∈ u.arena.line := by
  rw [arrives.old]
  exact List.mem_append_right _ member

theorem Arrives.front_new : front handle v.arena.line = before := by
  rw [arrives.line, front_append_right (fun inside => arrives.new (arrives.pending_before inside)), front_cons_self,
    List.append_nil]

/-- The new task is not ahead of those it stays behind. -/
theorem Arrives.front_before {k : UInt16} (member : k ∈ before) :
    front k v.arena.line = front k before ∧ front k u.arena.line = front k before := by
  rw [arrives.line, arrives.old, front_append_left member, front_append_left member]
  exact ⟨rfl, rfl⟩

/-- The new task is ahead of those it passes. -/
theorem Arrives.front_after {k : UInt16} (pending : k ∈ u.arena.line) (other : k ∉ before) :
    front k v.arena.line = before ++ handle :: front k after ∧ front k u.arena.line = before ++ front k after := by
  rw [arrives.line, arrives.old, front_append_right other, front_append_right other,
    front_cons_of_ne (arrives.ne pending).symm]
  exact ⟨rfl, rfl⟩

/-- Of a pending task, the new one may be ahead, and else what was. -/
theorem Arrives.mem_front {k s : UInt16} (pending : k ∈ u.arena.line) (other : s ≠ handle) :
    s ∈ front k v.arena.line ↔ s ∈ front k u.arena.line := by
  by_cases inside : k ∈ before
  · obtain ⟨front_v, front_u⟩ := arrives.front_before inside
    rw [front_v, front_u]
  · obtain ⟨front_v, front_u⟩ := arrives.front_after pending inside
    rw [front_v, front_u]
    simp [other]

end arrives

theorem Departs.pending {handle k : UInt16} (departs : Departs u v handle) (member : k ∈ v.arena.line) :
    k ∈ u.arena.line := by
  rw [departs.line]
  exact List.mem_cons_of_mem _ member

theorem Departs.front {handle k : UInt16} (departs : Departs u v handle) (sound : u.Sound)
    (member : k ∈ v.arena.line) : front k u.arena.line = handle :: front k v.arena.line := by
  have distinct := sound.nodup_line
  rw [departs.line] at distinct
  have other : handle ≠ k := fun same => (List.nodup_cons.mp distinct).1 (same ▸ member)
  rw [departs.line, front_cons_of_ne other]

theorem Sound.step (sound : u.Sound) {move : Move} (follows : Follows move u v) : v.Sound := by
  have old := sound.numbered
  refine ⟨follows.laid, follows.fresh, ?_, ?_⟩
  · cases follows.change with
    | quiet quiet => rw [quiet.line, quiet.arrivals, quiet.departures, quiet.number]; exact old
    | arrive handle before after arrives =>
      rw [arrives.old, List.map_append] at old
      rw [arrives.line, arrives.arrivals, arrives.departures, List.map_append, List.map_cons, arrives.number_new,
        arrives.map_number (fun _ => arrives.pending_before), arrives.map_number (fun _ => arrives.pending_after),
        List.length_append, List.length_singleton, List.range_succ]
      refine List.Perm.trans ?_ (List.perm_append_singleton _ _).symm
      exact (List.perm_middle.append_right _).trans (old.cons _)
    | depart handle departs =>
      rw [departs.line, List.map_cons] at old
      rw [departs.arrivals, departs.departures, departs.number, List.map_append, List.map_singleton,
        ← List.append_assoc]
      exact (List.perm_append_singleton _ _).trans old
  · intro k pending
    cases follows.change with
    | quiet quiet =>
      rw [quiet.arrivals, quiet.number]
      exact sound.arrived k (quiet.line ▸ pending)
    | arrive handle before after arrives =>
      rw [arrives.arrivals]
      rcases arrives.new_or_old pending with rfl | earlier
      · rw [arrives.number_new]
        simp
      · rw [arrives.number_old earlier, List.getElem?_append_left (sound.number_lt earlier)]
        exact sound.arrived k earlier
    | depart handle departs =>
      rw [departs.arrivals, departs.number]
      exact sound.arrived k (departs.pending pending)

/-- What every move of a run keeps holds at its end. -/
theorem Sound.run {P : Usage Q → Prop} {moves : List Move}
    (keeps : ∀ {u v : Usage Q} {move : Move}, move ∈ moves → u.Sound → Follows move u v → P u → P v)
    (ran : run? moves u = some v) (sound : u.Sound) (holds : P u) : v.Sound ∧ P v := by
  induction moves generalizing u with
  | nil =>
    rw [← Option.some.inj ran]
    exact ⟨sound, holds⟩
  | cons move moves ih =>
    obtain ⟨w, moved, onward⟩ := Option.bind_eq_some_iff.mp ran
    have follows := sound.follows moved
    exact ih (fun member => keeps (List.mem_cons_of_mem move member)) onward (sound.step follows)
      (keeps (by simp) sound follows holds)

end Usage
end AirMonitor
