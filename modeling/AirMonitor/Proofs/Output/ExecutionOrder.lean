import AirMonitor.Proofs.Output.Usage
import Mathlib.Data.List.Sort

/-!
The order in which an arena with one fairness runs its tasks. A pending task is ahead
of another because it is more urgent, because it is as urgent and came first, or, if it
is less urgent and came first, because a saturated task holds the other back. Such a
task stays between the two for as long as they are pending, so the law is kept by every
move (`InOrder.step`). It says by itself that behind the last saturated task the line is
sorted, which is what the walk of an insertion relies on.
-/
namespace AirMonitor

theorem Task.bypassed_le_bypass (t : Task) : t.bypassed ≤ t.bypass.bypassed := by
  unfold bypass
  split
  · exact UInt8.le_refl _
  · rw [UInt8.le_iff_toNat_le, UInt8.toNat_ofNat']
    have small := t.bypassed.toNat_lt
    omega

theorem Task.isSaturated_bypass {fairness : Fairness} {t : Task} (saturated : t.isSaturated fairness = true) :
    t.bypass.isSaturated fairness = true := by
  cases fairness with
  | strict => simp [isSaturated] at saturated
  | bounded limit =>
    simp only [isSaturated, TaskArena.isSleep_bypass, Bool.and_eq_true, decide_eq_true_eq] at saturated ⊢
    exact ⟨saturated.1, UInt8.le_trans saturated.2 t.bypassed_le_bypass⟩

@[simp] theorem Task.priority_bypass (t : Task) : t.bypass.priority = t.priority := by
  unfold bypass
  split <;> rfl

namespace Usage
variable {Q : Nat} {u v : Usage Q} {fairness : Fairness}

/-- A saturated task stands at or behind `x` and ahead of `y`. -/
def HeldBack (u : Usage Q) (fairness : Fairness) (x y : UInt16) : Prop :=
  ∃ s ∈ front y u.arena.line, s ∉ front x u.arena.line ∧ (u.arena.task s).isSaturated fairness = true

/-- Why `x` may be ahead of `y`. -/
def MayPrecede (u : Usage Q) (fairness : Fairness) (x y : UInt16) : Prop :=
  (u.arena.task x).priority < (u.arena.task y).priority ∨
  (u.arena.task x).priority = (u.arena.task y).priority ∧ u.number x < u.number y ∨
  (u.arena.task y).priority < (u.arena.task x).priority ∧ u.number x < u.number y ∧ u.HeldBack fairness x y

structure InOrder (u : Usage Q) (fairness : Fairness) : Prop where
  fairness_eq : u.arena.fairness = fairness
  precede : ∀ y ∈ u.arena.line, ∀ x ∈ front y u.arena.line, u.MayPrecede fairness x y

/-- A pair that is in order stays so while the tasks keep their urgency and their
    numbers, and the saturated ones their places. -/
theorem MayPrecede.mono {x y : UInt16} (precede : u.MayPrecede fairness x y)
    (urgencyX : (v.arena.task x).priority = (u.arena.task x).priority)
    (urgencyY : (v.arena.task y).priority = (u.arena.task y).priority)
    (numberX : v.number x = u.number x) (numberY : v.number y = u.number y)
    (held : u.HeldBack fairness x y → v.HeldBack fairness x y) : v.MayPrecede fairness x y := by
  unfold MayPrecede at *
  rw [urgencyX, urgencyY, numberX, numberY]
  rcases precede with urgent | early | ⟨larger, early, holding⟩
  · exact .inl urgent
  · exact .inr (.inl early)
  · exact .inr (.inr ⟨larger, early, held holding⟩)

/-- Behind the last saturated task the line is sorted. -/
theorem InOrder.sorted_behind (order : u.InOrder fairness) {before after : List UInt16} {first y : UInt16}
    (whole : u.arena.line = before ++ first :: after) (distinct : u.arena.line.Nodup)
    (unsaturated : ∀ k ∈ first :: after, (u.arena.task k).isSaturated fairness = false) (member : y ∈ first :: after) :
    (u.arena.task first).priority ≤ (u.arena.task y).priority := by
  rcases List.mem_cons.mp member with rfl | later
  · exact UInt8.le_refl _
  · rw [whole] at distinct
    have apart : y ∉ before := fun inside => (List.nodup_append.mp distinct).2.2 y inside y member rfl
    have differ : first ≠ y := fun same => (List.nodup_cons.mp (List.nodup_append.mp distinct).2.1).1 (same ▸ later)
    have frontY : front y u.arena.line = before ++ first :: front y after := by
      rw [whole, front_append_right apart, front_cons_of_ne differ]
    have frontFirst : front first u.arena.line = before := by rw [whole, front_eq distinct]
    have inLine : y ∈ u.arena.line := by rw [whole]; exact List.mem_append_right _ member
    have ahead : first ∈ front y u.arena.line := by simp [frontY]
    rcases order.precede y inLine first ahead with urgent | ⟨equal, -⟩ | ⟨-, -, s, between, notBefore, saturated⟩
    · exact UInt8.le_of_lt urgent
    · exact UInt8.le_of_eq equal
    · -- The task that would hold `y` back is among the unsaturated ones.
      rw [frontFirst] at notBefore
      rw [frontY] at between
      have among := (List.mem_append.mp between).resolve_left notBefore
      have inside : s ∈ first :: after := by
        rcases List.mem_cons.mp among with rfl | deeper
        · simp
        · exact List.mem_cons_of_mem _ (mem_of_front deeper)
      rw [unsaturated s inside] at saturated
      exact absurd saturated (by simp)

theorem InOrder.quiet (order : u.InOrder fairness) (fairness_eq : v.arena.fairness = fairness) (quiet : Quiet u v) :
    v.InOrder fairness := by
  refine ⟨fairness_eq, ?_⟩
  intro y memberY x ahead
  rw [quiet.line] at memberY ahead
  refine (order.precede y memberY x ahead).mono ?_ ?_ (by rw [quiet.number]) (by rw [quiet.number]) ?_
  · rw [quiet.tasks x (mem_of_front ahead)]
  · rw [quiet.tasks y memberY]
  · rintro ⟨s, between, notBefore, saturated⟩
    refine ⟨s, quiet.line ▸ between, quiet.line ▸ notBefore, ?_⟩
    rw [quiet.tasks s (mem_of_front between)]
    exact saturated

theorem InOrder.depart (order : u.InOrder fairness) (sound : u.Sound) (fairness_eq : v.arena.fairness = fairness)
    {handle : UInt16} (departs : Departs u v handle) : v.InOrder fairness := by
  refine ⟨fairness_eq, ?_⟩
  intro y memberY x ahead
  have memberX : x ∈ v.arena.line := mem_of_front ahead
  have before : x ∈ front y u.arena.line := by
    rw [departs.front sound memberY]
    exact List.mem_cons_of_mem _ ahead
  refine (order.precede y (departs.pending memberY) x before).mono ?_ ?_ (by rw [departs.number])
    (by rw [departs.number]) ?_
  · rw [departs.tasks]
  · rw [departs.tasks]
  · rintro ⟨s, between, notBefore, saturated⟩
    rw [departs.front sound memberY] at between
    rw [departs.front sound memberX] at notBefore
    obtain ⟨notFirst, notAhead⟩ := List.ne_and_not_mem_of_not_mem_cons notBefore
    exact ⟨s, (List.mem_cons.mp between).resolve_left notFirst, notAhead, by rw [departs.tasks]; exact saturated⟩

section arrives
variable {handle : UInt16} {before after : List UInt16} (arrives : Arrives u v handle before after)
include arrives

theorem Arrives.priority_eq (k : UInt16) : (v.arena.task k).priority = (u.arena.task k).priority := by
  rw [arrives.tasks]
  split
  · exact Task.priority_bypass _
  · rfl

theorem Arrives.isSaturated {k : UInt16} (saturated : (u.arena.task k).isSaturated fairness = true) :
    (v.arena.task k).isSaturated fairness = true := by
  rw [arrives.tasks]
  split
  · exact Task.isSaturated_bypass saturated
  · exact saturated

/-- What stays ahead of the new task is as urgent, or held back by a saturated task. -/
theorem Arrives.precede_new (sound : u.Sound) {x : UInt16} (member : x ∈ before) :
    v.MayPrecede u.arena.fairness x handle := by
  have early : v.number x < v.number handle := by
    rw [arrives.number_old (arrives.pending_before member), arrives.number_new]
    exact sound.number_lt (arrives.pending_before member)
  unfold MayPrecede
  rw [arrives.priority_eq, arrives.priority_eq]
  by_cases equal : (u.arena.task x).priority = (u.arena.task handle).priority
  · exact .inr (.inl ⟨equal, early⟩)
  · rcases UInt8.lt_or_lt_of_ne equal with urgent | larger
    · exact .inl urgent
    · obtain ⟨pre, post, split_at⟩ := List.append_of_mem member
      obtain ⟨s, holder, saturated⟩ := arrives.held pre x post split_at larger
      have distinct : (pre ++ x :: post).Nodup := by
        have whole := sound.nodup_line
        rw [arrives.old, split_at] at whole
        exact (List.nodup_append.mp whole).1
      have front_x : front x v.arena.line = pre := by
        rw [(arrives.front_before member).1, split_at, front_eq distinct]
      refine .inr (.inr ⟨larger, early, s, ?_, ?_, arrives.isSaturated saturated⟩)
      · rw [arrives.front_new, split_at]
        exact List.mem_append_right _ holder
      · rw [front_x]
        exact fun inside => (List.nodup_append.mp distinct).2.2 s inside s holder rfl

/-- What the new task passes is behind the last saturated task, and so less urgent. -/
theorem Arrives.new_precedes (order : u.InOrder fairness) (sound : u.Sound) {y : UInt16} (member : y ∈ after) :
    v.MayPrecede fairness handle y := by
  have unsaturated := arrives.unsaturated
  rw [order.fairness_eq] at unsaturated
  cases after with
  | nil => simp at member
  | cons first rest =>
    have least := order.sorted_behind arrives.old sound.nodup_line unsaturated member
    have passes := arrives.first_passed first (by simp)
    refine .inl ?_
    rw [arrives.priority_eq, arrives.priority_eq]
    exact UInt8.lt_of_lt_of_le passes least

theorem Arrives.precede_old {x y : UInt16} (pendingX : x ∈ u.arena.line) (pendingY : y ∈ u.arena.line)
    (precede : u.MayPrecede fairness x y) : v.MayPrecede fairness x y := by
  refine precede.mono (arrives.priority_eq x) (arrives.priority_eq y) (arrives.number_old pendingX)
    (arrives.number_old pendingY) ?_
  rintro ⟨s, between, notBefore, saturated⟩
  have other := arrives.ne (mem_of_front between)
  exact ⟨s, (arrives.mem_front pendingY other).mpr between,
    fun inside => notBefore ((arrives.mem_front pendingX other).mp inside), arrives.isSaturated saturated⟩

/-- A new task comes last of those as urgent as it, and passes no task that is held back. -/
theorem InOrder.arrive (order : u.InOrder fairness) (sound : u.Sound) (fairness_eq : v.arena.fairness = fairness) :
    v.InOrder fairness := by
  refine ⟨fairness_eq, ?_⟩
  intro y memberY x ahead
  rcases arrives.new_or_old memberY with rfl | pendingY
  · rw [arrives.front_new] at ahead
    rw [← order.fairness_eq]
    exact arrives.precede_new sound ahead
  · by_cases new : x = handle
    · subst new
      refine arrives.new_precedes order sound ?_
      rw [arrives.old] at pendingY
      refine (List.mem_append.mp pendingY).resolve_left (fun inside => ?_)
      rw [(arrives.front_before inside).1] at ahead
      exact arrives.ne (arrives.pending_before (mem_of_front ahead)) rfl
    · have aheadOld := (arrives.mem_front pendingY new).mp ahead
      exact arrives.precede_old (mem_of_front aheadOld) pendingY (order.precede y pendingY x aheadOld)

end arrives

theorem InOrder.step (order : u.InOrder fairness) (sound : u.Sound) {move : Move} (follows : Follows move u v)
    (unchanged : fairnessAfter move fairness = fairness) : v.InOrder fairness := by
  have fairness_eq : v.arena.fairness = fairness := by
    rw [follows.fairness, order.fairness_eq, unchanged]
  cases follows.change with
  | quiet quiet => exact order.quiet fairness_eq quiet
  | arrive handle before after arrives => exact order.arrive arrives sound fairness_eq
  | depart handle departs => exact order.depart sound fairness_eq departs

/-! ### Strict order -/

theorem pairwise_of_front {R : UInt16 → UInt16 → Prop} {line : List UInt16} (distinct : line.Nodup)
    (all : ∀ y ∈ line, ∀ x ∈ front y line, R x y) : line.Pairwise R := by
  induction line with
  | nil => exact .nil
  | cons first line ih =>
    obtain ⟨apart, distinct'⟩ := List.nodup_cons.mp distinct
    have front_later : ∀ y ∈ line, front y (first :: line) = first :: front y line := by
      intro y member
      have other : first ≠ y := fun same => apart (same ▸ member)
      exact front_cons_of_ne other line
    refine .cons ?_ (ih distinct' ?_)
    · intro y member
      exact all y (List.mem_cons_of_mem _ member) first (by simp [front_later y member])
    · intro y member x ahead
      exact all y (List.mem_cons_of_mem _ member) x (by simp [front_later y member, ahead])

/-- Of two tasks as urgent as each other, sorting by urgency keeps the first ahead. -/
theorem pairwise_mergeSort_priority (t : UInt16 → Task) {R : UInt16 → UInt16 → Prop} {l : List UInt16}
    (related : l.Pairwise R) :
    (l.mergeSort fun x y => decide ((t x).priority ≤ (t y).priority)).Pairwise fun x y =>
      (t x).priority < (t y).priority ∨ (t x).priority = (t y).priority ∧ R x y := by
  set sorted := l.mergeSort fun x y => decide ((t x).priority ≤ (t y).priority)
  have trans : ∀ x y z : UInt16, decide ((t x).priority ≤ (t y).priority) = true →
      decide ((t y).priority ≤ (t z).priority) = true → decide ((t x).priority ≤ (t z).priority) = true := by
    intro x y z
    simp only [decide_eq_true_eq]
    exact UInt8.le_trans
  have total : ∀ x y : UInt16, (decide ((t x).priority ≤ (t y).priority) ||
      decide ((t y).priority ≤ (t x).priority)) = true := by
    intro x y
    simpa using UInt8.le_total (t x).priority (t y).priority
  have perm : sorted.Perm l := List.mergeSort_perm l _
  -- The tasks of one priority number come out in the order in which they went in.
  have classes : ∀ p : UInt8, sorted.filter (fun x => (t x).priority = p) = l.filter (fun x => (t x).priority = p) := by
    intro p
    have ordered : (l.filter fun x => (t x).priority = p).Pairwise
        fun x y => decide ((t x).priority ≤ (t y).priority) = true := by
      refine List.pairwise_of_forall_mem_list ?_
      intro x memberX y memberY
      have atX := (List.mem_filter.mp memberX).2
      have atY := (List.mem_filter.mp memberY).2
      simp only [decide_eq_true_eq] at atX atY ⊢
      rw [atX, atY]
      exact UInt8.le_refl p
    have inside := (List.sublist_mergeSort trans total ordered List.filter_sublist).filter fun x => (t x).priority = p
    rw [List.filter_filter] at inside
    simp only [Bool.and_self] at inside
    exact (inside.eq_of_length (perm.filter _).symm.length_eq).symm
  refine List.pairwise_iff_forall_sublist.mpr ?_
  intro x y pair
  have le := List.pairwise_iff_forall_sublist.mp (List.pairwise_mergeSort trans total l) pair
  rcases UInt8.lt_or_eq_of_le (of_decide_eq_true le) with urgent | equal
  · exact .inl urgent
  · have both := pair.filter fun k => (t k).priority = (t y).priority
    rw [classes, List.filter_eq_self.mpr (by simp [equal])] at both
    exact .inr ⟨equal, List.pairwise_iff_forall_sublist.mp related (both.trans List.filter_sublist)⟩

/-- The numbers of the arrivals that have not departed. -/
theorem Sound.waiting_numbers (sound : u.Sound) :
    u.waiting.map u.number = (List.range u.arrivals.length).filter (· ∉ u.departures.map (·.number)) ∧
      ∀ k ∈ u.waiting, k ∈ u.arena.line := by
  have present : ∀ i ∈ (List.range u.arrivals.length).filter (· ∉ u.departures.map (·.number)),
      ∃ k ∈ u.arena.line, u.number k = i ∧ u.arrivals[i]?.map (·.handle) = some k := by
    intro i member
    obtain ⟨inside, notDeparted⟩ := List.mem_filter.mp member
    have either := List.mem_append.mp (sound.numbered.mem_iff.mpr inside)
    obtain ⟨k, pending, rfl⟩ := List.mem_map.mp (either.resolve_right (of_decide_eq_true notDeparted))
    exact ⟨k, pending, rfl, sound.arrived k pending⟩
  unfold waiting
  generalize (List.range u.arrivals.length).filter (· ∉ u.departures.map (·.number)) = numbers at present
  induction numbers with
  | nil => simp
  | cons i numbers ih =>
    obtain ⟨tail, inLine⟩ := ih (fun j member => present j (List.mem_cons_of_mem i member))
    obtain ⟨k, pending, number, handle⟩ := present i (by simp)
    rw [List.filterMap_cons, handle]
    constructor
    · rw [List.map_cons, tail, number]
    · intro l member
      rcases List.mem_cons.mp member with rfl | later
      · exact pending
      · exact inLine l later

theorem Sound.pairwise_waiting (sound : u.Sound) : u.waiting.Pairwise fun x y => u.number x < u.number y := by
  have increasing := (List.pairwise_lt_range (n := u.arrivals.length)).filter (· ∉ u.departures.map (·.number))
  rw [← sound.waiting_numbers.1] at increasing
  exact List.pairwise_map.mp increasing

theorem Sound.perm_waiting (sound : u.Sound) : u.waiting.Perm u.arena.line := by
  have distinct : u.waiting.Nodup := sound.pairwise_waiting.imp (fun less same => by simp [same] at less)
  refine (List.perm_ext_iff_of_nodup distinct sound.nodup_line).mpr ?_
  intro k
  refine ⟨sound.waiting_numbers.2 k, ?_⟩
  intro pending
  have notDeparted : u.number k ∉ u.departures.map (·.number) := by
    intro departed
    exact (List.nodup_append.mp sound.nodup_numbers).2.2 _ (List.mem_map_of_mem pending) _ departed rfl
  refine List.mem_filterMap.mpr ⟨u.number k, ?_, sound.arrived k pending⟩
  exact List.mem_filter.mpr ⟨List.mem_range.mpr (sound.number_lt pending), decide_eq_true notDeparted⟩

theorem InOrder.strict (order : u.InOrder .strict) (sound : u.Sound) :
    u.arena.line = u.waiting.mergeSort fun x y => decide ((u.arena.task x).priority ≤ (u.arena.task y).priority) := by
  have line_sorted : u.arena.line.Pairwise fun x y => (u.arena.task x).priority < (u.arena.task y).priority ∨
      (u.arena.task x).priority = (u.arena.task y).priority ∧ u.number x < u.number y := by
    refine pairwise_of_front sound.nodup_line ?_
    intro y member x ahead
    rcases order.precede y member x ahead with urgent | early | ⟨-, -, s, -, -, saturated⟩
    · exact .inl urgent
    · exact .inr early
    · simp [Task.isSaturated] at saturated
  refine List.Perm.eq_of_pairwise ?_ line_sorted (pairwise_mergeSort_priority u.arena.task sound.pairwise_waiting)
    (sound.perm_waiting.symm.trans (List.mergeSort_perm _ _).symm)
  -- No two tasks are each to run before the other.
  rintro x y - - (urgent | ⟨equal, early⟩) (urgent' | ⟨equal', early'⟩)
  · exact absurd urgent' (UInt8.not_lt.mpr (UInt8.le_of_lt urgent))
  · exact absurd urgent (by rw [equal']; exact UInt8.lt_irrefl _)
  · exact absurd urgent' (by rw [equal]; exact UInt8.lt_irrefl _)
  · omega

/-- Of two pending tasks the first is more urgent; or as urgent, and it came first; or
    less urgent, and it came first and a task that may be passed no more holds the other
    back. Without limit on bypasses, tasks are popped sorted by urgency, and as they came. -/
theorem pending_in_order (positive : 0 < Q) (small : Q < 65535) {moves : List Move}
    (unchanged : ∀ f, .setFairness f ∈ moves → f = fairness) (ran : run? moves (ofFairness fairness) = some u) :
    u.arena.popAll Q = u.arena.line ∧
    (∀ before x between y after, u.arena.line = before ++ x :: (between ++ y :: after) →
      (u.arena.task x).priority < (u.arena.task y).priority ∨
      (u.arena.task x).priority = (u.arena.task y).priority ∧ u.number x < u.number y ∨
      (u.arena.task y).priority < (u.arena.task x).priority ∧ u.number x < u.number y ∧
        ∃ limit, fairness = .bounded limit ∧
          ∃ s ∈ x :: between, (u.arena.task s).isSleep = false ∧ limit ≤ (u.arena.task s).bypassed) ∧
    (fairness = .strict → u.arena.popAll Q =
      u.waiting.mergeSort fun x y => decide ((u.arena.task x).priority ≤ (u.arena.task y).priority)) := by
  have start : (ofFairness fairness : Usage Q).InOrder fairness := by
    refine ⟨rfl, ?_⟩
    have line_eq : (ofFairness fairness : Usage Q).arena.line = [] :=
      (TaskArena.layout_ofFairness positive small fairness).line_eq
    simp [line_eq]
  obtain ⟨sound, order⟩ := Sound.run (P := fun w : Usage Q => w.InOrder fairness)
    (fun {_ _ move} member sound follows holds => holds.step sound follows (by
      cases move with
      | setFairness f => exact unchanged f member
      | _ => rfl)) ran (sound_ofFairness positive small fairness) start
  obtain ⟨free, laid⟩ := sound.laid
  have popped : u.arena.popAll Q = u.arena.line := TaskArena.popAll_eq laid (by have := laid.length_eq; omega)
  refine ⟨popped, ?_, ?_⟩
  · intro before x between y after whole
    have distinct := sound.nodup_line
    have front_x : front x u.arena.line = before := by
      rw [whole] at distinct ⊢
      exact front_eq distinct
    have shifted : before ++ x :: (between ++ y :: after) = (before ++ x :: between) ++ y :: after := by simp
    have front_y : front y u.arena.line = before ++ x :: between := by
      rw [whole, shifted] at distinct ⊢
      exact front_eq distinct
    rcases order.precede y (by simp [whole]) x (by simp [front_y]) with urgent | early | ⟨larger, early, s, ahead, behind, saturated⟩
    · exact .inl urgent
    · exact .inr (.inl early)
    · rw [front_y] at ahead
      rw [front_x] at behind
      have holder : s ∈ x :: between := (List.mem_append.mp ahead).resolve_left behind
      cases fairness with
      | strict => simp [Task.isSaturated] at saturated
      | bounded limit =>
        simp only [Task.isSaturated, Bool.and_eq_true, Bool.not_eq_true', decide_eq_true_eq] at saturated
        exact .inr (.inr ⟨larger, early, limit, rfl, s, holder, saturated⟩)
  · rintro rfl
    rw [popped]
    exact order.strict sound

/-- A task that may be passed once, one that passes it, and one that may not. -/
def overtakenOnce : List Move :=
  [.alloc (.send .console 0) 5 0, .insert 0, .alloc (.send .console 1) 1 1, .insert 1,
    .alloc (.send .console 2) 1 2, .insert 2]

theorem pending_in_order_overtakenOnce :
    ∃ u : Usage 4, run? overtakenOnce (ofFairness (.bounded 1)) = some u ∧ u.arena.line = [1, 0, 2] ∧
      ((u.arena.task 0).priority < (u.arena.task 2).priority ∨
      (u.arena.task 0).priority = (u.arena.task 2).priority ∧ u.number 0 < u.number 2 ∨
      (u.arena.task 2).priority < (u.arena.task 0).priority ∧ u.number 0 < u.number 2 ∧
        ∃ limit, Fairness.bounded 1 = .bounded limit ∧
          ∃ s ∈ [(0 : UInt16)], (u.arena.task s).isSleep = false ∧ limit ≤ (u.arena.task s).bypassed) := by
  obtain ⟨u, ran⟩ : ∃ u : Usage 4, run? overtakenOnce (ofFairness (.bounded 1)) = some u :=
    Option.isSome_iff_exists.mp (by decide +kernel)
  have line : (run? overtakenOnce (ofFairness (.bounded 1) : Usage 4)).map (·.arena.line) = some [1, 0, 2] := by
    decide +kernel
  rw [ran, Option.map_some, Option.some.injEq] at line
  have unchanged : ∀ f, Move.setFairness f ∈ overtakenOnce → f = .bounded 1 := by simp [overtakenOnce]
  exact ⟨u, ran, line, (pending_in_order (by decide) (by decide) unchanged ran).2.1 [1] 0 [] 2 [] (by rw [line]; rfl)⟩

end Usage
end AirMonitor
