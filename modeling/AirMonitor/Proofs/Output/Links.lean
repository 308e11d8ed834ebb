import AirMonitor.Output.Arena
import Mathlib.Data.List.Nodup

/-!
The lists of an arena as paths along its links. A write to one slot leaves every
path that avoids the slot (`Path.congr`), and two paths that meet are one
(`path_append`), so linking a slot in is a statement about two paths. The walks of
the arena are described by the list they walk: `search` finds the place that
`staying` counts (`search_eq`), and `charge` charges the tasks of its list and no
others (`slot_charge`).
-/
namespace AirMonitor

/-- The links lead from `start` through a list of slots to `stop`. -/
def Path (next : UInt16 → UInt16) : UInt16 → List UInt16 → UInt16 → Prop
  | start, [], stop => start = stop
  | start, handle :: rest, stop => start = handle ∧ handle ≠ noSlot ∧ Path next (next handle) rest stop

section
variable {next next' : UInt16 → UInt16} {start stop : UInt16}

theorem Path.congr {l : List UInt16} (path : Path next start l stop) (same : ∀ handle ∈ l, next' handle = next handle) :
    Path next' start l stop := by
  induction l generalizing start with
  | nil => exact path
  | cons handle rest ih =>
    obtain ⟨at_start, is_slot, onward⟩ := path
    refine ⟨at_start, is_slot, ?_⟩
    rw [same handle (by simp)]
    exact ih onward (fun other member => same other (by simp [member]))

theorem path_append {l r : List UInt16} :
    Path next start (l ++ r) stop ↔ ∃ middle, Path next start l middle ∧ Path next middle r stop := by
  induction l generalizing start with
  | nil => simp [Path]
  | cons handle rest ih => simp [Path, ih, and_assoc]

/-- A path that ends nowhere is told by its first slot. -/
theorem Path.start_eq {l : List UInt16} (path : Path next start l noSlot) : start = l.headD noSlot := by
  cases l with
  | nil => exact path
  | cons handle rest => exact path.1

/-- What a slot links to once it stands behind `before` and ahead of `after`. -/
theorem Path.link {before after : List UInt16} {handle : UInt16} (path : Path next start (before ++ after) noSlot)
    (distinct : (before ++ after).Nodup) (new : handle ∉ before ++ after) (is_slot : handle ≠ noSlot)
    (kept : ∀ k ∈ before ++ after, before.getLast? ≠ some k → next' k = next k)
    (linked : ∀ k, before.getLast? = some k → next' k = handle) (onward : next' handle = after.headD noSlot) :
    Path next' (if before = [] then handle else start) (before ++ handle :: after) noSlot := by
  obtain ⟨middle, front, back⟩ := path_append.mp path
  have tail : Path next' handle (handle :: after) noSlot := by
    refine ⟨rfl, is_slot, ?_⟩
    rw [onward, ← back.start_eq]
    refine back.congr (fun k member => kept k (by simp [member]) ?_)
    intro last
    exact (List.nodup_append.mp distinct).2.2 k (List.mem_of_getLast? last) k member rfl
  rcases List.eq_nil_or_concat before with rfl | ⟨init, last, rfl⟩
  · exact tail
  · rw [List.concat_eq_append] at *
    obtain ⟨joint, lead, at_last, last_slot, -⟩ := path_append.mp front
    have initDistinct : last ∉ init := by
      intro member
      have both := (List.nodup_append.mp (List.nodup_append.mp distinct).1).2.2
      exact both last member last (by simp) rfl
    have lead' : Path next' start init last := by
      subst at_last
      refine lead.congr (fun k member => kept k (by simp [member]) ?_)
      simp only [List.getLast?_append, List.getLast?_singleton, Option.some_or, ne_eq, Option.some.injEq]
      rintro rfl
      exact initDistinct member
    rw [if_neg (by simp), List.append_assoc]
    refine path_append.mpr ⟨last, lead', rfl, last_slot, ?_⟩
    rw [linked last (by simp)]
    exact tail

end

namespace TaskArena
variable {Q : Nat}

/-- The slot behind a slot. -/
def next (a : TaskArena Q) (handle : UInt16) : UInt16 := (a.slot handle).next

/-- The task in a slot. -/
def task (a : TaskArena Q) (handle : UInt16) : Task := (a.slot handle).task

/-- The slots of the pending tasks in execution order. -/
def line (a : TaskArena Q) : List UInt16 := a.chain Q a.pendingHead

theorem pending_eq (a : TaskArena Q) : a.pending = a.line.map a.task := rfl

theorem slot_setSlot (a : TaskArena Q) {handle : UInt16} (inside : handle.toNat < Q) (s : TaskSlot) (k : UInt16) :
    (a.setSlot handle s).slot k = if k = handle then s else a.slot k := by
  by_cases same : k = handle
  · subst same
    simp [slot, setSlot, inside]
  · have apart : handle.toNat ≠ k.toNat := fun equal => same (UInt16.toNat_inj.mp equal).symm
    simp [slot, setSlot, apart, same, Vector.getElem?_setIfInBounds_ne]

theorem chain_eq {a : TaskArena Q} {start : UInt16} {l : List UInt16} (path : Path a.next start l noSlot) {limit : Nat}
    (room : l.length ≤ limit) : a.chain limit start = l := by
  induction l generalizing start limit with
  | nil =>
    cases limit with
    | zero => rfl
    | succ limit => simp [chain, show start = noSlot from path]
  | cons handle rest ih =>
    obtain ⟨limit, rfl⟩ : ∃ n, limit = n + 1 := ⟨limit - 1, by simp at room; omega⟩
    obtain ⟨rfl, is_slot, onward⟩ := path
    have tail : a.chain limit (a.slot start).next = rest := ih onward (by simpa using room)
    simp [chain, is_slot, tail]

theorem slot_linkAfter (a : TaskArena Q) {before : List UInt16} (inside : ∀ k ∈ before, k.toNat < Q)
    (are_slots : ∀ k ∈ before, k ≠ noSlot) (handle k : UInt16) :
    (linkAfter (before.getLastD noSlot) handle a).slot k =
      if before.getLast? = some k then { a.slot k with next := handle } else a.slot k := by
  rcases List.eq_nil_or_concat before with rfl | ⟨init, last, rfl⟩
  · simp [linkAfter, slot]
  · have is_slot : last ≠ noSlot := are_slots last (by simp)
    have within : last.toNat < Q := inside last (by simp)
    simp only [List.concat_eq_append, List.getLastD_concat, linkAfter, if_neg is_slot, slot_setSlot a within,
      List.getLast?_append, List.getLast?_singleton, Option.some_or, Option.some.injEq, eq_comm (a := k)]
    split
    · next same => rw [same]
    · rfl

theorem pendingHead_linkAfter (a : TaskArena Q) {before : List UInt16} (are_slots : ∀ k ∈ before, k ≠ noSlot)
    (handle : UInt16) :
    (linkAfter (before.getLastD noSlot) handle a).pendingHead = if before = [] then handle else a.pendingHead := by
  rcases List.eq_nil_or_concat before with rfl | ⟨init, last, rfl⟩
  · simp [linkAfter]
  · have is_slot : last ≠ noSlot := are_slots last (by simp)
    simp [linkAfter, is_slot, setSlot]

theorem linkAfter_eq (before handle : UInt16) (a : TaskArena Q) :
    linkAfter before handle a =
      { a with slots := (linkAfter before handle a).slots, pendingHead := (linkAfter before handle a).pendingHead } := by
  unfold linkAfter
  split <;> rfl

/-! ### The place of a new task -/

/-- How many tasks a new one stays behind: all up to the last saturated one, and
    behind it those up to the first of a larger priority number. -/
def staying (fairness : Fairness) (priority : UInt8) : List Task → Nat
  | [] => 0
  | t :: ts =>
    if priority < t.priority ∧ ∀ u ∈ t :: ts, u.isSaturated fairness = false then 0
    else staying fairness priority ts + 1

/-- The tasks that a new one passes are not saturated. -/
theorem unsaturated_of_mem_drop {f : Fairness} {p : UInt8} {l : List Task} :
    ∀ u ∈ l.drop (staying f p l), u.isSaturated f = false := by
  induction l with
  | nil => simp
  | cons t ts ih =>
    rw [staying]
    split
    · next passed => simpa using passed.2
    · simpa using ih

/-- The first task that a new one passes has a larger priority number. -/
theorem lt_of_head_drop {f : Fairness} {p : UInt8} {l : List Task} :
    ∀ u ∈ (l.drop (staying f p l)).head?, p < u.priority := by
  induction l with
  | nil => simp
  | cons t ts ih =>
    rw [staying]
    split
    · next passed => simpa using passed.1
    · simpa using ih

/-- A less urgent task that a new one stays behind is held by a saturated one. -/
theorem held_of_take {fairness : Fairness} {priority : UInt8} {ts before after : List Task} {t : Task}
    (split_at : ts.take (staying fairness priority ts) = before ++ t :: after) (larger : priority < t.priority) :
    ∃ u ∈ t :: after, u.isSaturated fairness = true := by
  induction ts generalizing before with
  | nil => simp at split_at
  | cons first ts ih =>
    rw [staying] at split_at
    split at split_at
    · simp at split_at
    · next stays =>
      rw [List.take_succ_cons] at split_at
      cases before with
      | cons other before => exact ih (List.cons.inj split_at).2
      | nil =>
        obtain ⟨rfl, rest⟩ := List.cons.inj split_at
        by_contra none
        simp only [not_exists, not_and, Bool.not_eq_true] at none
        refine stays ⟨larger, ?_⟩
        intro u member
        rcases List.mem_cons.mp member with rfl | later
        · exact none _ (by simp)
        · rw [← List.take_append_drop (staying fairness priority ts) ts, rest] at later
          rcases List.mem_append.mp later with kept | passed
          · exact none u (by simp [kept])
          · exact unsaturated_of_mem_drop u passed

/-- A place found on the way is kept unless a saturated task comes behind it. -/
theorem search_some (a : TaskArena Q) (priority : UInt8) {limit : Nat} {before after previous current : UInt16}
    {rest : List UInt16} (path : Path a.next current rest noSlot) (room : rest.length ≤ limit) :
    a.search priority limit (some (before, after)) previous current =
      if rest.any fun handle => (a.task handle).isSaturated a.fairness then a.search priority limit none previous current
      else .between before after := by
  induction rest generalizing limit before after previous current with
  | nil =>
    rw [show current = noSlot from path]
    cases limit <;> simp [search]
  | cons handle rest ih =>
    obtain ⟨limit, rfl⟩ : ∃ n, limit = n + 1 := ⟨limit - 1, by simp at room; omega⟩
    obtain ⟨rfl, is_slot, onward⟩ := path
    have room' : rest.length ≤ limit := by simpa using room
    have tail : ∀ b f, a.search priority limit (some (b, f)) current (a.slot current).next = _ :=
      fun b f => ih onward room'
    cases saturated : (a.task current).isSaturated a.fairness with
    | true => simp [search, is_slot, show (a.slot current).task = a.task current from rfl, saturated]
    | false =>
      simp only [search, is_slot, show (a.slot current).task = a.task current from rfl, saturated]
      by_cases held : rest.any fun handle => (a.task handle).isSaturated a.fairness
      · by_cases larger : priority < (a.task current).priority
        · simp [tail, held, saturated, larger]
        · simp [tail, held, saturated, larger]
      · simp [tail, held, saturated]

/-- The place behind `before` and in front of `after`. -/
def Place.mk (previous : UInt16) (before after : List UInt16) : Place :=
  match after with
  | [] => .last (before.getLastD previous)
  | first :: _ => .between (before.getLastD previous) first

/-- The walk ends at the place that `staying` counts. -/
theorem search_eq (a : TaskArena Q) (priority : UInt8) {limit : Nat} {previous current : UInt16} {rest : List UInt16}
    (path : Path a.next current rest noSlot) (room : rest.length ≤ limit) :
    a.search priority limit none previous current =
      .mk previous (rest.take (staying a.fairness priority (rest.map a.task)))
        (rest.drop (staying a.fairness priority (rest.map a.task))) := by
  induction rest generalizing limit previous current with
  | nil =>
    rw [show current = noSlot from path]
    cases limit <;> simp [search, Place.mk]
  | cons handle rest ih =>
    obtain ⟨limit, rfl⟩ : ∃ n, limit = n + 1 := ⟨limit - 1, by simp at room; omega⟩
    obtain ⟨rfl, is_slot, onward⟩ := path
    have room' : rest.length ≤ limit := by simpa using room
    have tail : a.search priority limit none current (a.slot current).next = _ := ih onward room'
    have found : a.search priority limit (some (previous, current)) current (a.slot current).next = _ :=
      search_some a priority onward room'
    have passed : ∀ k, Place.mk previous (current :: rest.take k) (rest.drop k) =
        .mk current (rest.take k) (rest.drop k) := by
      intro k
      cases rest.drop k <;> simp only [Place.mk, List.getLastD_cons]
    have counted : staying a.fairness priority ((current :: rest).map a.task) =
        if priority < (a.task current).priority ∧
            ∀ handle ∈ current :: rest, (a.task handle).isSaturated a.fairness = false then 0
        else staying a.fairness priority (rest.map a.task) + 1 := by
      simp [staying]
    rw [counted]
    simp only [search, is_slot, ↓reduceIte, show (a.slot current).task = a.task current from rfl]
    by_cases passing : priority < (a.task current).priority ∧
        ∀ handle ∈ current :: rest, (a.task handle).isSaturated a.fairness = false
    · have clear : ¬ rest.any fun handle => (a.task handle).isSaturated a.fairness := by
        simpa using fun k member => passing.2 k (List.mem_cons_of_mem current member)
      rw [if_neg clear] at found
      rw [if_pos passing]
      simp [passing.1, passing.2 current (by simp), found, Place.mk]
    · rw [if_neg passing, List.take_succ_cons, List.drop_succ_cons, passed, ← tail]
      cases saturated : (a.task current).isSaturated a.fairness with
      | true => simp
      | false =>
        by_cases larger : priority < (a.task current).priority
        · have held : rest.any fun handle => (a.task handle).isSaturated a.fairness := by
            by_contra clear
            exact passing ⟨larger, by simpa [saturated] using clear⟩
          rw [if_pos held] at found
          simp [larger, found]
        · simp [larger]

/-! ### Bypasses -/

@[simp] theorem isSleep_bypass (t : Task) : t.bypass.isSleep = t.isSleep := by
  unfold Task.bypass
  split <;> rfl

/-- The walk charges the tasks of its list, and changes nothing else. -/
theorem slot_charge {a : TaskArena Q} {start : UInt16} {l : List UInt16} (path : Path a.next start l noSlot)
    (distinct : l.Nodup) (inside : ∀ handle ∈ l, handle.toNat < Q) {limit : Nat} (room : l.length ≤ limit) (k : UInt16) :
    (charge limit start a).slot k =
      if k ∈ l then { a.slot k with task := (a.task k).bypass } else a.slot k := by
  induction l generalizing a start limit with
  | nil =>
    rw [show start = noSlot from path]
    cases limit <;> simp [charge]
  | cons handle rest ih =>
    obtain ⟨limit, rfl⟩ : ∃ n, limit = n + 1 := ⟨limit - 1, by simp at room; omega⟩
    obtain ⟨rfl, is_slot, onward⟩ := path
    obtain ⟨apart, distinct'⟩ := List.nodup_cons.mp distinct
    set b := a.setSlot start { a.slot start with task := (a.slot start).task.bypass } with b_eq
    have slot_b : ∀ k, b.slot k = if k = start then { a.slot start with task := (a.task start).bypass } else a.slot k :=
      slot_setSlot a (inside start (by simp)) _
    have onward' : Path b.next (a.slot start).next rest noSlot := by
      refine onward.congr (fun k member => ?_)
      have other : k ≠ start := fun same => apart (same ▸ member)
      simp [next, slot_b, other]
    have room' : rest.length ≤ limit := by simpa using room
    have tail := ih onward' distinct' (fun k member => inside k (by simp [member])) room'
    simp only [charge, is_slot, ↓reduceIte, ← b_eq, tail]
    by_cases same : k = start
    · subst same
      simp [apart, slot_b]
    · simp [same, slot_b, task]

theorem charge_noSlot (limit : Nat) (a : TaskArena Q) : charge limit noSlot a = a := by
  cases limit <;> simp [charge]

theorem charge_eq (limit : Nat) (start : UInt16) (a : TaskArena Q) :
    charge limit start a = { a with slots := (charge limit start a).slots } := by
  induction limit generalizing start a with
  | zero => rfl
  | succ limit ih =>
    rw [charge]
    split
    · rfl
    · rw [ih]
      rfl

end TaskArena
end AirMonitor
