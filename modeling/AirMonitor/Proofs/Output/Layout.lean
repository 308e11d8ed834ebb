import AirMonitor.Proofs.Output.Links
import Mathlib.Data.List.Perm.Basic

/-!
How an arena shares out its slots: some are free, some pending, and the rest held by
whoever took them. Each operation moves one slot from one share to another and
leaves the tasks in all other slots alone, except that `insert` charges the tasks
which the new one passes.
-/
namespace AirMonitor.TaskArena
variable {Q : Nat}

/-- All slots. -/
def allSlots (Q : Nat) : List UInt16 := (List.range Q).map .ofNat

theorem length_allSlots : (allSlots Q).length = Q := by simp [allSlots]

theorem toNat_ofNat_of_lt {i : Nat} (small : i < 65536) : (UInt16.ofNat i).toNat = i := by
  rw [UInt16.toNat_ofNat']
  exact Nat.mod_eq_of_lt small

theorem mem_allSlots (small : Q < 65535) (handle : UInt16) : handle ∈ allSlots Q ↔ handle.toNat < Q := by
  simp only [allSlots, List.mem_map, List.mem_range]
  constructor
  · rintro ⟨i, inside, rfl⟩
    rwa [toNat_ofNat_of_lt (by omega)]
  · intro inside
    exact ⟨handle.toNat, inside, UInt16.ofNat_toNat⟩

theorem nodup_allSlots (small : Q < 65535) : (allSlots Q).Nodup := by
  refine List.Nodup.map_on ?_ List.nodup_range
  intro i insideI j insideJ same
  have values := congrArg UInt16.toNat same
  rw [List.mem_range] at insideI insideJ
  rwa [toNat_ofNat_of_lt (by omega), toNat_ofNat_of_lt (by omega)] at values

/-- The free slots and the pending ones are linked in order, and with the held ones
    they are all slots. -/
structure Layout (a : TaskArena Q) (free pending held : List UInt16) : Prop where
  small : Q < 65535
  free_path : Path a.next a.freeHead free noSlot
  pending_path : Path a.next a.pendingHead pending noSlot
  shares : (free ++ (pending ++ held)).Perm (allSlots Q)
  freeCount : a.freeCount = free.length
  pendingCount : a.pendingCount = pending.length

namespace Layout
variable {a : TaskArena Q} {free pending held : List UInt16}

theorem distinct (laid : Layout a free pending held) : (free ++ (pending ++ held)).Nodup :=
  laid.shares.nodup_iff.mpr (nodup_allSlots laid.small)

theorem inside (laid : Layout a free pending held) {handle : UInt16} (member : handle ∈ free ++ (pending ++ held)) :
    handle.toNat < Q :=
  (mem_allSlots laid.small handle).mp (laid.shares.mem_iff.mp member)

theorem ne_noSlot (laid : Layout a free pending held) {handle : UInt16} (member : handle ∈ free ++ (pending ++ held)) :
    handle ≠ noSlot := by
  rintro rfl
  have inside := laid.inside member
  have small := laid.small
  simp [noSlot] at inside
  omega

theorem length_eq (laid : Layout a free pending held) : free.length + (pending.length + held.length) = Q := by
  have lengths := laid.shares.length_eq
  simpa [length_allSlots] using lengths

theorem line_eq (laid : Layout a free pending held) : a.line = pending :=
  chain_eq laid.pending_path (by have := laid.length_eq; omega)

theorem nodup_pending (laid : Layout a free pending held) : pending.Nodup :=
  (List.nodup_append.mp (List.nodup_append.mp laid.distinct).2.1).1

theorem not_mem_pending (laid : Layout a free pending held) {handle : UInt16} (member : handle ∈ held) :
    handle ∉ pending :=
  fun other => (List.nodup_append.mp (List.nodup_append.mp laid.distinct).2.1).2.2 handle other handle member rfl

/-- The held slots in another order. -/
theorem held_perm (laid : Layout a free pending held) {held' : List UInt16} (same : held.Perm held') :
    Layout a free pending held' :=
  { laid with shares := ((same.append_left _).append_left _).symm.trans laid.shares }

theorem with_fairness (laid : Layout a free pending held) (fairness : Fairness) :
    Layout { a with fairness } free pending held :=
  ⟨laid.small, laid.free_path, laid.pending_path, laid.shares, laid.freeCount, laid.pendingCount⟩

end Layout

theorem layout_ofFairness (positive : 0 < Q) (small : Q < 65535) (fairness : Fairness) :
    Layout (ofFairness fairness : TaskArena Q) (allSlots Q) [] [] where
  small := small
  free_path := by
    have next_eq : ∀ i, i < Q → (ofFairness fairness : TaskArena Q).next (.ofNat i) =
        if i + 1 < Q then .ofNat (i + 1) else noSlot := by
      intro i inside
      simp only [next, slot, toNat_ofNat_of_lt (show i < 65536 by omega), ofFairness]
      simp [inside]
    -- The slots from `Q - n` on, by induction on `n`.
    have tail : ∀ n, n ≤ Q → Path (ofFairness fairness : TaskArena Q).next (if 0 < n then .ofNat (Q - n) else noSlot)
        ((List.range' (Q - n) n).map .ofNat) noSlot := by
      intro n
      induction n with
      | zero => intro _; rfl
      | succ n ih =>
        intro le
        have start : Q - (n + 1) + 1 = Q - n := by omega
        rw [List.range'_succ, List.map_cons, start]
        refine ⟨by simp, ?_, ?_⟩
        · intro same
          have values := congrArg UInt16.toNat same
          rw [toNat_ofNat_of_lt (by omega)] at values
          simp [noSlot] at values
          omega
        · rw [next_eq _ (by omega), start]
          have onward := ih (by omega)
          rcases Nat.eq_zero_or_pos n with rfl | more
          · simpa using onward
          · simpa [show Q - n < Q by omega, more] using onward
    have whole := tail Q (Nat.le_refl Q)
    rw [if_pos positive, Nat.sub_self, ← List.range_eq_range'] at whole
    exact whole
  pending_path := rfl
  shares := by simp
  freeCount := by simp [ofFairness, length_allSlots]
  pendingCount := rfl

/-! ### Operations -/

namespace Layout
variable {a : TaskArena Q} {free pending held : List UInt16}

theorem no_alloc (laid : Layout a [] pending held) (t : Task) : a.alloc? t = none := by
  simp [alloc?, show a.freeHead = noSlot from laid.free_path]

/-- Allocation takes the first free slot. -/
theorem after_alloc {handle : UInt16} (laid : Layout a (handle :: free) pending held) (t : Task) :
    ∃ b, a.alloc? t = some (handle, b) ∧ Layout b free pending (handle :: held) ∧
      (∀ k, b.task k = if k = handle then t else a.task k) ∧ b.fairness = a.fairness := by
  obtain ⟨at_head, is_slot, onward⟩ := laid.free_path
  have apart := (List.nodup_cons.mp laid.distinct).1
  have inside : handle.toNat < Q := laid.inside (by simp)
  simp only [alloc?, at_head, if_neg is_slot, Option.some.injEq, Prod.mk.injEq, true_and, exists_eq_left']
  set b : TaskArena Q := { a.setSlot handle ⟨t, noSlot⟩ with
    freeHead := (a.slot handle).next, freeCount := a.freeCount - 1 }
  have slot_b : ∀ k, b.slot k = if k = handle then ⟨t, noSlot⟩ else a.slot k := slot_setSlot a inside _
  have next_b : ∀ k ∈ free ++ (pending ++ held), b.next k = a.next k := by
    intro k member
    have other : k ≠ handle := fun same => apart (same ▸ member)
    simp [next, slot_b, other]
  refine ⟨⟨laid.small, ?_, ?_, ?_, ?_, laid.pendingCount⟩, ?_, rfl⟩
  · exact onward.congr (fun k member => next_b k (by simp [member]))
  · exact laid.pending_path.congr (fun k member => next_b k (by simp [member]))
  · refine List.Perm.trans ?_ laid.shares
    rw [← List.append_assoc, ← List.append_assoc, List.cons_append]
    exact List.perm_middle
  · simp [b, laid.freeCount]
  · intro k
    simp only [task, slot_b]
    split <;> rfl

/-- A held slot that is given back is the first free one. -/
theorem after_free {handle : UInt16} (laid : Layout a free pending held) (member : handle ∈ held) :
    Layout (a.free handle) (handle :: free) pending (held.erase handle) ∧
      (∀ k, (a.free handle).task k = a.task k) ∧ (a.free handle).fairness = a.fairness := by
  have inside : handle.toNat < Q := laid.inside (by simp [member])
  have slot_b : ∀ k, (a.free handle).slot k = if k = handle then { a.slot handle with next := a.freeHead } else a.slot k :=
    slot_setSlot a inside _
  have apart : handle ∉ free ++ pending := by
    intro other
    have distinct := laid.distinct
    rw [← List.append_assoc] at distinct
    exact (List.nodup_append.mp distinct).2.2 handle other handle member rfl
  have next_b : ∀ k ∈ free ++ pending, (a.free handle).next k = a.next k := by
    intro k other
    have differ : k ≠ handle := fun same => apart (same ▸ other)
    simp [next, slot_b, differ]
  refine ⟨⟨laid.small, ⟨rfl, laid.ne_noSlot (by simp [member]), ?_⟩, ?_, ?_, ?_, laid.pendingCount⟩, ?_, rfl⟩
  · have onward : (a.free handle).next handle = a.freeHead := by simp [next, slot_b]
    rw [onward]
    exact laid.free_path.congr (fun k other => next_b k (by simp [other]))
  · exact laid.pending_path.congr (fun k other => next_b k (by simp [other]))
  · refine List.Perm.trans ?_ laid.shares
    have split_held : (free ++ (pending ++ held)).Perm (free ++ (pending ++ (handle :: held.erase handle))) :=
      ((List.perm_cons_erase member).append_left _).append_left _
    refine List.Perm.trans ?_ split_held.symm
    rw [← List.append_assoc, ← List.append_assoc, List.cons_append]
    exact List.perm_middle.symm
  · simp [TaskArena.free, laid.freeCount]
  · intro k
    simp only [task, slot_b]
    split
    · next same => rw [same]
    · rfl

theorem no_pop (laid : Layout a free [] held) : a.pop? = none := by
  simp [pop?, show a.pendingHead = noSlot from laid.pending_path]

/-- The first pending task is popped, and its slot held. -/
theorem after_pop {handle : UInt16} (laid : Layout a free (handle :: pending) held) :
    ∃ b, a.pop? = some ((handle, a.task handle), b) ∧ Layout b free pending (handle :: held) ∧
      (∀ k, b.task k = a.task k) ∧ b.fairness = a.fairness := by
  obtain ⟨at_head, is_slot, onward⟩ := laid.pending_path
  refine ⟨{ a with pendingHead := a.next handle, pendingCount := a.pendingCount - 1 }, ?_, ?_, fun _ => rfl, rfl⟩
  · simp [pop?, at_head, is_slot, task, next]
  · refine ⟨laid.small, laid.free_path, onward, ?_, laid.freeCount, ?_⟩
    · exact (List.perm_middle.append_left _).trans laid.shares
    · simp [laid.pendingCount]

/-- The walk and the links that an insertion makes, for the place it found. -/
theorem insert_eq {handle : UInt16} {before after : List UInt16}
    (found : a.search (a.task handle).priority Q none noSlot a.pendingHead = .mk noSlot before after) :
    a.insert handle =
      { charge Q (after.headD noSlot) (linkAfter (before.getLastD noSlot) handle
          (a.setSlot handle { a.slot handle with next := after.headD noSlot })) with
        pendingCount := a.pendingCount + 1 } := by
  simp only [insert, show (a.slot handle).task = a.task handle from rfl, found]
  cases after with
  | nil =>
    simp only [Place.mk, List.headD_nil, charge_noSlot]
    unfold linkAfter
    split <;> rfl
  | cons first rest =>
    simp only [Place.mk, List.headD_cons]
    rw [charge_eq]
    unfold linkAfter
    split <;> rfl

/-- The pending slots ahead of a task that is put into order, and those it passes. -/
def kept (a : TaskArena Q) (pending : List UInt16) (handle : UInt16) : List UInt16 :=
  pending.take (staying a.fairness (a.task handle).priority (pending.map a.task))
def passed (a : TaskArena Q) (pending : List UInt16) (handle : UInt16) : List UInt16 :=
  pending.drop (staying a.fairness (a.task handle).priority (pending.map a.task))

theorem kept_append_passed (a : TaskArena Q) (pending : List UInt16) (handle : UInt16) :
    kept a pending handle ++ passed a pending handle = pending := List.take_append_drop _ _

theorem unsaturated_of_passed {handle k : UInt16} (member : k ∈ passed a pending handle) :
    (a.task k).isSaturated a.fairness = false := by
  apply unsaturated_of_mem_drop (p := (a.task handle).priority) (l := pending.map a.task)
  rw [← List.map_drop]
  exact List.mem_map_of_mem member

theorem lt_of_head_passed {handle k : UInt16} (first : k ∈ (passed a pending handle).head?) :
    (a.task handle).priority < (a.task k).priority := by
  apply lt_of_head_drop (f := a.fairness) (l := pending.map a.task)
  rw [← List.map_drop, List.head?_map]
  exact Option.mem_map_of_mem a.task first

theorem held_of_kept {handle k : UInt16} {before after : List UInt16}
    (split_at : kept a pending handle = before ++ k :: after) (larger : (a.task handle).priority < (a.task k).priority) :
    ∃ s ∈ k :: after, (a.task s).isSaturated a.fairness = true := by
  have tasks : (pending.map a.task).take (staying a.fairness (a.task handle).priority (pending.map a.task)) =
      before.map a.task ++ a.task k :: after.map a.task := by
    rw [← List.map_take, show pending.take _ = kept a pending handle from rfl, split_at]
    simp
  obtain ⟨u, member, saturated⟩ := held_of_take tasks larger
  rw [← List.map_cons] at member
  obtain ⟨s, holder, rfl⟩ := List.mem_map.mp member
  exact ⟨s, holder, saturated⟩

/-- A held slot that is linked in is pending in its place. Only its own link and the one to it change. -/
theorem linked {handle : UInt16} {before after : List UInt16} (laid : Layout a free (before ++ after) held)
    (member : handle ∈ held) {c : TaskArena Q}
    (linking : c = linkAfter (before.getLastD noSlot) handle
      (a.setSlot handle { a.slot handle with next := after.headD noSlot })) :
    Path c.next c.pendingHead (before ++ handle :: after) noSlot ∧ (∀ k, c.task k = a.task k) ∧
      ∀ k, k ≠ handle → before.getLast? ≠ some k → c.next k = a.next k := by
  have inside : handle.toNat < Q := laid.inside (by simp [member])
  have is_slot : handle ≠ noSlot := laid.ne_noSlot (by simp [member])
  have apart : handle ∉ before ++ after := laid.not_mem_pending member
  have insideBefore : ∀ k ∈ before, k.toNat < Q := fun k other => laid.inside (by simp [other])
  have slotsBefore : ∀ k ∈ before, k ≠ noSlot := fun k other => laid.ne_noSlot (by simp [other])
  set b := a.setSlot handle { a.slot handle with next := after.headD noSlot }
  have slot_b : ∀ k, b.slot k = if k = handle then { a.slot handle with next := after.headD noSlot } else a.slot k :=
    slot_setSlot a inside _
  have slot_c : ∀ k, c.slot k = if before.getLast? = some k then { b.slot k with next := handle } else b.slot k := by
    rw [linking]
    exact slot_linkAfter b insideBefore slotsBefore handle
  have next_c : ∀ k, k ≠ handle → before.getLast? ≠ some k → c.next k = a.next k := by
    intro k other inner
    simp [next, slot_c, slot_b, other, inner]
  have last_ne : ∀ k, before.getLast? = some k → k ≠ handle := by
    rintro k last rfl
    exact apart (by simp [List.mem_of_getLast? last])
  refine ⟨?_, ?_, next_c⟩
  · rw [linking, pendingHead_linkAfter b slotsBefore handle, ← linking]
    refine laid.pending_path.link laid.nodup_pending apart is_slot ?_ ?_ ?_
    · intro k other inner
      exact next_c k (fun same => apart (same ▸ other)) inner
    · intro k last
      simp [next, slot_c, last]
    · have inner : before.getLast? ≠ some handle := fun last => last_ne handle last rfl
      simp [next, slot_c, slot_b, inner]
  · intro k
    simp only [task, slot_c, slot_b]
    split <;> split <;> simp_all

/-- A held slot that is inserted is pending ahead of the tasks it passes, and they are charged. -/
theorem after_insert {handle : UInt16} (laid : Layout a free pending held) (member : handle ∈ held) :
    Layout (a.insert handle) free (kept a pending handle ++ handle :: passed a pending handle) (held.erase handle) ∧
      (∀ k, (a.insert handle).task k = if k ∈ passed a pending handle then (a.task k).bypass else a.task k) ∧
      (a.insert handle).fairness = a.fairness := by
  have room : pending.length ≤ Q := by have := laid.length_eq; omega
  have found : a.search (a.task handle).priority Q none noSlot a.pendingHead =
      .mk noSlot (kept a pending handle) (passed a pending handle) :=
    search_eq a (a.task handle).priority laid.pending_path room
  rw [insert_eq found]
  have whole := kept_append_passed a pending handle
  generalize kept a pending handle = before, passed a pending handle = after at *
  subst whole
  set c := linkAfter (before.getLastD noSlot) handle
    (a.setSlot handle { a.slot handle with next := after.headD noSlot }) with c_eq
  obtain ⟨path_c, task_c, next_c⟩ := laid.linked member c_eq
  -- The charged slots are those behind the new one.
  obtain ⟨_, -, at_handle, -, tail⟩ := path_append.mp path_c
  rw [tail.start_eq] at tail
  obtain ⟨-, distinctAfter, -⟩ := List.nodup_append.mp laid.nodup_pending
  have insideAfter : ∀ k ∈ after, k.toNat < Q := fun k other => laid.inside (by simp [other])
  have roomAfter : after.length ≤ Q := by simp at room; omega
  set d := charge Q (after.headD noSlot) c with d_eq
  have slot_d : ∀ k, d.slot k = if k ∈ after then { c.slot k with task := (c.task k).bypass } else c.slot k :=
    slot_charge tail distinctAfter insideAfter roomAfter
  have next_d : ∀ k, d.next k = c.next k := by
    intro k
    simp only [next, slot_d]
    split <;> rfl
  have fields : d = { a with slots := d.slots, pendingHead := c.pendingHead } := by
    rw [d_eq, charge_eq, c_eq, linkAfter_eq]
    rfl
  refine ⟨⟨laid.small, ?_, ?_, ?_, ?_, ?_⟩, ?_, ?_⟩
  · have same_head : d.freeHead = a.freeHead := by rw [fields]
    change Path d.next d.freeHead free noSlot
    rw [same_head]
    refine laid.free_path.congr (fun k other => ?_)
    have away : k ∉ before ++ (after ++ held) := by
      intro elsewhere
      exact (List.nodup_append.mp laid.distinct).2.2 k other k (by simpa using elsewhere) rfl
    rw [next_d, next_c k]
    · rintro rfl
      exact away (by simp [member])
    · intro last
      exact away (by simp [List.mem_of_getLast? last])
  · have same_head : d.pendingHead = c.pendingHead := by rw [fields]
    change Path d.next d.pendingHead (before ++ handle :: after) noSlot
    rw [same_head]
    exact path_c.congr (fun k _ => next_d k)
  · refine List.Perm.trans (List.Perm.append_left _ ?_) laid.shares
    have out : (before ++ handle :: after ++ held.erase handle).Perm (before ++ after ++ handle :: held.erase handle) :=
      (List.perm_middle.append_right _).trans List.perm_middle.symm
    exact out.trans ((List.perm_cons_erase member).symm.append_left _)
  · have same_count : d.freeCount = a.freeCount := by rw [fields]
    change d.freeCount = free.length
    rw [same_count, laid.freeCount]
  · have count := laid.pendingCount
    simp only [List.length_append, List.length_cons] at count ⊢
    omega
  · intro k
    rw [← task_c k]
    change (d.slot k).task = _
    rw [slot_d]
    split <;> rfl
  · change d.fairness = a.fairness
    rw [fields]

end Layout

/-- Pending tasks with a new one put in its place, and those it passes charged. -/
def placed (fairness : Fairness) (ts : List Task) (t : Task) : List Task :=
  ts.take (staying fairness t.priority ts) ++ t :: (ts.drop (staying fairness t.priority ts)).map Task.bypass

theorem Layout.pending_insert {a : TaskArena Q} {free pending held : List UInt16} (laid : Layout a free pending held)
    {handle : UInt16} (member : handle ∈ held) :
    (a.insert handle).pending = placed a.fairness a.pending (a.task handle) := by
  obtain ⟨laid', tasks, -⟩ := laid.after_insert member
  have whole := Layout.kept_append_passed a pending handle
  have apart : handle ∉ pending := laid.not_mem_pending member
  have distinct : (Layout.kept a pending handle ++ Layout.passed a pending handle).Nodup := by
    rw [whole]
    exact laid.nodup_pending
  have stays : (Layout.kept a pending handle).map (a.insert handle).task = (Layout.kept a pending handle).map a.task := by
    refine List.map_congr_left (fun k kept => ?_)
    rw [tasks, if_neg (fun passed => (List.nodup_append.mp distinct).2.2 k kept k passed rfl)]
  have charged : (Layout.passed a pending handle).map (a.insert handle).task =
      ((Layout.passed a pending handle).map a.task).map Task.bypass := by
    rw [List.map_map]
    refine List.map_congr_left (fun k passed => ?_)
    rw [tasks, if_pos passed, Function.comp_apply]
  have itself : (a.insert handle).task handle = a.task handle := by
    refine (tasks handle).trans (if_neg ?_)
    intro passed
    exact apart (List.mem_of_mem_drop passed)
  rw [pending_eq, laid'.line_eq, List.map_append, List.map_cons, stays, charged, itself, pending_eq, laid.line_eq,
    placed, ← List.map_take, ← List.map_drop]
  rfl

/-- The slots of the tasks that are popped in turn, at most `limit` of them. -/
def popAll : Nat → TaskArena Q → List UInt16
  | 0, _ => []
  | limit + 1, a =>
    match a.pop? with
    | none => []
    | some ((handle, _), a) => handle :: popAll limit a

/-- Tasks are popped in the order in which they are pending. -/
theorem popAll_eq {a : TaskArena Q} {free pending held : List UInt16} (laid : Layout a free pending held) {limit : Nat}
    (room : pending.length ≤ limit) : a.popAll limit = pending := by
  induction pending generalizing a held limit with
  | nil => cases limit <;> simp [popAll, laid.no_pop]
  | cons handle pending ih =>
    obtain ⟨limit, rfl⟩ : ∃ n, limit = n + 1 := ⟨limit - 1, by simp at room; omega⟩
    obtain ⟨b, popped, laid', -, -⟩ := laid.after_pop
    have tail := ih laid' (Nat.le_of_succ_le_succ room)
    simp [popAll, popped, tail]

end AirMonitor.TaskArena
