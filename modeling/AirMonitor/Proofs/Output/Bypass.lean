import AirMonitor.Proofs.Output.Usage

/-!
Bypasses. A pending task has been overtaken by the later arrivals that have departed
and by those that are ahead of it. An insertion adds one to this number for just the
tasks it passes, and a departure moves one task from the second kind to the first, so
the charge on a task always tells how often it was overtaken (`Charged.step`). A task
that may be passed no more is not passed, which bounds the number while one limit holds
(`Limited.bypass`).
-/
namespace AirMonitor.Usage
variable {Q : Nat} {u v : Usage Q}

/-- How many of the departed tasks arrived after a given one. -/
def departedLater (departures : List Departure) (number : Nat) : Nat := departures.countP (number < ·.number)

/-- How many tasks that arrived after a pending one have departed or are ahead of it. -/
def overtaken (u : Usage Q) (k : UInt16) : Nat :=
  departedLater u.departures (u.number k) + (front k u.arena.line).countP (u.number k < u.number ·)

/-- The charge of a task tells how often it was overtaken. Sleep is not charged. -/
def Counts (passes : Nat) (t : Task) : Prop :=
  (t.isSleep = false → t.bypassed.toNat = min 255 passes) ∧ (t.isSleep = true → t.bypassed = 0)

theorem Counts.start {t : Task} (unpassed : t.bypassed = 0) : Counts 0 t :=
  ⟨fun _ => by simp [unpassed], fun _ => unpassed⟩

theorem Counts.bypass {passes : Nat} {t : Task} (counts : Counts passes t) : Counts (passes + 1) t.bypass := by
  constructor
  · intro awake
    rw [TaskArena.isSleep_bypass] at awake
    have charge := counts.1 awake
    simp only [Task.bypass, awake, Bool.false_eq_true, if_false, UInt8.toNat_ofNat']
    omega
  · intro asleep
    rw [TaskArena.isSleep_bypass] at asleep
    simpa [Task.bypass, asleep] using counts.2 asleep

/-- The effect of a change on one task that stays pending. -/
structure Carried (u v : Usage Q) (k : UInt16) (passed : Nat) : Prop where
  member : k ∈ u.arena.line
  number : v.number k = u.number k
  arrival : v.arrivals[u.number k]? = u.arrivals[u.number k]?
  overtaken : v.overtaken k = u.overtaken k + passed
  place : v.departures.length + (front k v.arena.line).length = u.departures.length + (front k u.arena.line).length + passed

/-- An insertion is one more bypass of just the tasks it passes. -/
theorem Arrives.carried {handle : UInt16} {before after : List UInt16} (arrives : Arrives u v handle before after)
    (sound : u.Sound) {k : UInt16} (pending : k ∈ u.arena.line) : Carried u v k (if k ∈ after then 1 else 0) := by
  have number : v.number k = u.number k := arrives.number_old pending
  have early : u.number k < v.number handle := by
    rw [arrives.number_new]
    exact sound.number_lt pending
  have counts : ∀ l : List UInt16, (∀ s ∈ l, s ∈ u.arena.line) →
      l.countP (v.number k < v.number ·) = l.countP (u.number k < u.number ·) := by
    intro l inside
    refine List.countP_congr (fun s member => ?_)
    rw [number, arrives.number_old (inside s member)]
  have arrival : v.arrivals[u.number k]? = u.arrivals[u.number k]? := by
    rw [arrives.arrivals, List.getElem?_append_left (sound.number_lt pending)]
  have distinct := sound.nodup_line
  rw [arrives.old] at distinct
  by_cases ahead : k ∈ before
  · have stays : k ∉ after := fun behind => (List.nodup_append.mp distinct).2.2 k ahead k behind rfl
    obtain ⟨front_v, front_u⟩ := arrives.front_before ahead
    rw [if_neg stays]
    refine ⟨pending, number, arrival, ?_, ?_⟩
    · rw [Usage.overtaken, Usage.overtaken, front_v, front_u, arrives.departures,
        counts _ (fun s inside => arrives.pending_before (mem_of_front inside)), number]
      omega
    · rw [front_v, front_u, arrives.departures]
      omega
  · have behind : k ∈ after := by
      rw [arrives.old] at pending
      exact (List.mem_append.mp pending).resolve_left ahead
    obtain ⟨front_v, front_u⟩ := arrives.front_after pending ahead
    rw [if_pos behind]
    refine ⟨pending, number, arrival, ?_, ?_⟩
    · rw [Usage.overtaken, Usage.overtaken, front_v, front_u, arrives.departures, List.countP_append,
        List.countP_append, List.countP_cons, counts before (fun _ => arrives.pending_before),
        counts (front k after) (fun s inside => arrives.pending_after (mem_of_front inside)), number]
      simp only [early, decide_true, if_true]
      omega
    · rw [front_v, front_u, arrives.departures]
      simp
      omega

theorem Departs.carried {handle : UInt16} (departs : Departs u v handle) (sound : u.Sound) {k : UInt16}
    (member : k ∈ v.arena.line) : Carried u v k 0 := by
  have front_u := departs.front sound member
  refine ⟨departs.pending member, by rw [departs.number], by rw [departs.arrivals], ?_, ?_⟩
  · rw [Usage.overtaken, Usage.overtaken, front_u, departs.departures, departs.number, departedLater, departedLater,
      List.countP_append, List.countP_cons, List.countP_cons, List.countP_nil]
    dsimp only
    omega
  · rw [front_u, departs.departures]
    simp
    omega

/-- Nobody has overtaken a task that just arrived. -/
theorem Arrives.overtaken_new {handle : UInt16} {before after : List UInt16}
    (arrives : Arrives u v handle before after) (sound : u.Sound) : v.overtaken handle = 0 := by
  have departed : departedLater u.departures u.arrivals.length = 0 := by
    refine List.countP_eq_zero.mpr (fun d member => ?_)
    have earlier := sound.departed_lt member
    simp
    omega
  have ahead : before.countP (u.arrivals.length < v.number ·) = 0 := by
    refine List.countP_eq_zero.mpr (fun k member => ?_)
    have earlier := sound.number_lt (arrives.pending_before member)
    rw [arrives.number_old (arrives.pending_before member)]
    simp
    omega
  rw [Usage.overtaken, arrives.front_new, arrives.departures, arrives.number_new, departed, ahead]

/-- A law between how often a task was overtaken and its charge holds of the pending
    tasks and held of the others when they were popped. The pops that a task saw are those
    of the tasks it was put behind and those that overtook it. -/
structure Charged (law : Nat → Task → Prop) (u : Usage Q) : Prop where
  pending : ∀ k ∈ u.arena.line, law (u.overtaken k) (u.arena.task k)
  waited : ∀ k ∈ u.arena.line, ∃ a, u.arrivals[u.number k]? = some a ∧
    u.departures.length + (front k u.arena.line).length = a.departed + a.ahead + u.overtaken k
  popped : ∀ i d, u.departures[i]? = some d → law (departedLater (u.departures.take i) d.number) d.task ∧
    ∃ a, u.arrivals[d.number]? = some a ∧ i = a.departed + a.ahead + departedLater (u.departures.take i) d.number

variable {law : Nat → Task → Prop}

theorem Charged.waited_carried {k : UInt16} {passed : Nat} (charged : Charged law u) (carried : Carried u v k passed) :
    ∃ a, v.arrivals[v.number k]? = some a ∧
      v.departures.length + (front k v.arena.line).length = a.departed + a.ahead + v.overtaken k := by
  obtain ⟨a, arrived, waited⟩ := charged.waited k carried.member
  refine ⟨a, by rw [carried.number, carried.arrival, arrived], ?_⟩
  rw [carried.place, carried.overtaken]
  omega

/-- Departures that are kept stay accounted for. -/
theorem Charged.popped_kept (charged : Charged law u) (sound : u.Sound) (departures : u.departures <+: v.departures)
    (arrivals : u.arrivals <+: v.arrivals) {i : Nat} {d : Departure} (departed : u.departures[i]? = some d) :
    law (departedLater (v.departures.take i) d.number) d.task ∧
      ∃ a, v.arrivals[d.number]? = some a ∧ i = a.departed + a.ahead + departedLater (v.departures.take i) d.number := by
  obtain ⟨more, departures⟩ := departures
  obtain ⟨later, arrivals⟩ := arrivals
  have within : i < u.departures.length := (List.getElem?_eq_some_iff.mp departed).1
  have same : v.departures.take i = u.departures.take i := by
    rw [← departures, List.take_append_of_le_length (Nat.le_of_lt within)]
  rw [same, ← arrivals, List.getElem?_append_left (sound.departed_lt (List.mem_of_getElem? departed))]
  exact charged.popped i d departed

theorem Charged.quiet (charged : Charged law u) (quiet : Quiet u v) : Charged law v := by
  have same : ∀ k, v.overtaken k = u.overtaken k := by
    intro k
    rw [Usage.overtaken, Usage.overtaken, quiet.line, quiet.departures, quiet.number]
  refine ⟨?_, ?_, ?_⟩
  · intro k member
    rw [quiet.line] at member
    rw [same, quiet.tasks k member]
    exact charged.pending k member
  · intro k member
    rw [quiet.line] at member
    rw [same, quiet.number, quiet.arrivals, quiet.departures, quiet.line]
    exact charged.waited k member
  · rw [quiet.departures, quiet.arrivals]
    exact charged.popped

theorem Charged.arrive (charged : Charged law u) (sound : u.Sound) {handle : UInt16} {before after : List UInt16}
    (arrives : Arrives u v handle before after) (start : ∀ t : Task, t.bypassed = 0 → law 0 t)
    (passing : ∀ passes t, t.isSaturated u.arena.fairness = false → law passes t → law (passes + 1) t.bypass) :
    Charged law v := by
  have fresh : v.overtaken handle = 0 := arrives.overtaken_new sound
  refine ⟨?_, ?_, ?_⟩
  · intro k member
    rcases arrives.new_or_old member with rfl | kept
    · have notPassed : k ∉ after := fun inside => arrives.ne (arrives.pending_after inside) rfl
      rw [fresh, arrives.tasks, if_neg notPassed]
      exact start _ arrives.start
    · rw [(arrives.carried sound kept).overtaken, arrives.tasks]
      have lawful := charged.pending k kept
      split
      · next behind => exact passing _ _ (arrives.unsaturated k behind) lawful
      · exact lawful
  · intro k member
    rcases arrives.new_or_old member with rfl | kept
    · refine ⟨⟨k, before.length, u.departures.length⟩, ?_, ?_⟩
      · rw [arrives.number_new, arrives.arrivals]
        simp
      · rw [fresh, arrives.departures, arrives.front_new]
        rfl
    · exact charged.waited_carried (arrives.carried sound kept)
  · intro i d departed
    rw [arrives.departures] at departed
    refine charged.popped_kept sound ⟨[], by simp [arrives.departures]⟩ ?_ departed
    rw [arrives.arrivals]
    exact List.prefix_append _ _

theorem Charged.depart (charged : Charged law u) (sound : u.Sound) {handle : UInt16} (departs : Departs u v handle) :
    Charged law v := by
  refine ⟨?_, ?_, ?_⟩
  · intro k member
    have carried := departs.carried sound member
    rw [carried.overtaken, departs.tasks]
    exact charged.pending k carried.member
  · exact fun k member => charged.waited_carried (departs.carried sound member)
  · intro i d departed
    have extends_ : u.departures <+: v.departures := by
      rw [departs.departures]
      exact List.prefix_append _ _
    rcases Nat.lt_or_ge i u.departures.length with within | beyond
    · rw [departs.departures, List.getElem?_append_left within] at departed
      exact charged.popped_kept sound extends_ ⟨[], by simp [departs.arrivals]⟩ departed
    · -- The task that is popped now: all that overtook it have departed.
      rw [departs.departures, List.getElem?_append_right beyond, List.getElem?_singleton] at departed
      have last : i = u.departures.length := by
        by_contra other
        rw [if_neg (by omega)] at departed
        simp at departed
      subst last
      rw [if_pos (by omega), Option.some.injEq] at departed
      subst departed
      have inLine : handle ∈ u.arena.line := by simp [departs.line]
      have nobody : u.overtaken handle = departedLater u.departures (u.number handle) := by
        rw [Usage.overtaken, departs.line, front_cons_self]
        rfl
      have whole : v.departures.take u.departures.length = u.departures := by simp [departs.departures]
      obtain ⟨a, arrived, waited⟩ := charged.waited handle inLine
      rw [whole, departs.arrivals, ← nobody]
      refine ⟨charged.pending handle inLine, a, arrived, ?_⟩
      rw [departs.line, front_cons_self] at waited
      exact waited

theorem Charged.step (charged : Charged law u) (sound : u.Sound) (change : Change u v)
    (start : ∀ t : Task, t.bypassed = 0 → law 0 t)
    (passing : ∀ passes t, t.isSaturated u.arena.fairness = false → law passes t → law (passes + 1) t.bypass) :
    Charged law v := by
  cases change with
  | quiet quiet => exact charged.quiet quiet
  | arrive handle before after arrives => exact charged.arrive sound arrives start passing
  | depart handle departs => exact charged.depart sound departs

/-- A task that is not sleep is overtaken no more often than the limit allows. -/
def Limited (limit : UInt8) (passes : Nat) (t : Task) : Prop :=
  Counts passes t ∧ (t.isSleep = false → passes ≤ limit.toNat)

theorem Limited.bypass {limit : UInt8} {passes : Nat} {t : Task}
    (unsaturated : t.isSaturated (.bounded limit) = false) (limited : Limited limit passes t) :
    Limited limit (passes + 1) t.bypass := by
  refine ⟨limited.1.bypass, ?_⟩
  intro awake
  rw [TaskArena.isSleep_bypass] at awake
  have charge := limited.1.1 awake
  have below : ¬ limit ≤ t.bypassed := by simpa [Task.isSaturated, awake] using unsaturated
  rw [UInt8.le_iff_toNat_le] at below
  have small := limit.toNat_lt
  omega

theorem charged_ofFairness (law : Nat → Task → Prop) (positive : 0 < Q) (small : Q < 65535) (fairness : Fairness) :
    Charged law (ofFairness fairness : Usage Q) := by
  have line_eq : (ofFairness fairness : Usage Q).arena.line = [] :=
    (TaskArena.layout_ofFairness positive small fairness).line_eq
  exact ⟨by simp [line_eq], by simp [line_eq], by simp [ofFairness]⟩

/-- The departure that follows others in a history. -/
theorem Charged.at_departure (charged : Charged law u) {before after : List Departure} {d : Departure}
    (history : u.departures = before ++ d :: after) : law (departedLater before d.number) d.task ∧
      ∃ a, u.arrivals[d.number]? = some a ∧ before.length = a.departed + a.ahead + departedLater before d.number := by
  have here := charged.popped before.length d (by simp [history])
  rwa [history, List.take_left] at here

/-- A popped task was charged once for each task that came later and was popped before it,
    up to 255 times; sleep was not charged. While one limit holds, at most that many
    overtake a task that is not sleep, and it sees at most as many pops as tasks were
    ahead of it when it came, and as the limit allows. -/
theorem bypassed_counts_overtaking (positive : 0 < Q) (small : Q < 65535) {fairness : Fairness} {moves : List Move}
    (ran : run? moves (ofFairness fairness) = some u) :
    (∀ before d after, u.departures = before ++ d :: after →
      (d.task.isSleep = false → d.task.bypassed.toNat = min 255 (departedLater before d.number)) ∧
      (d.task.isSleep = true → d.task.bypassed = 0)) ∧
    ∀ limit, fairness = .bounded limit → (∀ f, .setFairness f ∈ moves → f = .bounded limit) →
      (∀ before d after, u.departures = before ++ d :: after → d.task.isSleep = false →
        departedLater before d.number ≤ limit.toNat ∧
        ∃ a, u.arrivals[d.number]? = some a ∧ before.length ≤ a.departed + (a.ahead + limit.toNat)) ∧
      (∀ k ∈ u.arena.line, (u.arena.task k).isSleep = false →
        departedLater u.departures (u.number k) ≤ limit.toNat ∧
        ∃ a, u.arrivals[u.number k]? = some a ∧ u.departures.length ≤ a.departed + (a.ahead + limit.toNat)) := by
  have start := sound_ofFairness positive small fairness
  constructor
  · obtain ⟨-, charged⟩ := Sound.run (P := fun w : Usage Q => Charged Counts w)
      (fun _ sound follows holds => holds.step sound follows.change (fun _ => Counts.start)
        (fun _ _ _ => Counts.bypass)) ran start (charged_ofFairness Counts positive small fairness)
    exact fun before d after history => (charged.at_departure history).1
  · rintro limit rfl unchanged
    obtain ⟨-, -, charged⟩ := Sound.run
      (P := fun w : Usage Q => w.arena.fairness = .bounded limit ∧ Charged (Limited limit) w)
      (fun {_ _ move} member sound follows ⟨fairness_eq, holds⟩ => by
        refine ⟨?_, holds.step sound follows.change (fun _ unpassed => ⟨Counts.start unpassed, by simp⟩) ?_⟩
        · rw [follows.fairness, fairness_eq]
          cases move with
          | setFairness f => exact unchanged f member
          | _ => rfl
        · rw [fairness_eq]
          exact fun _ _ => Limited.bypass) ran start
      ⟨rfl, charged_ofFairness (Limited limit) positive small (.bounded limit)⟩
    constructor
    · intro before d after history awake
      obtain ⟨limited, a, arrived, seen⟩ := charged.at_departure history
      have passes := limited.2 awake
      exact ⟨passes, a, arrived, by omega⟩
    · intro k pending awake
      have passes := (charged.pending k pending).2 awake
      obtain ⟨a, arrived, seen⟩ := charged.waited k pending
      refine ⟨?_, a, arrived, by omega⟩
      unfold Usage.overtaken at passes
      omega

/-- A task that two later ones overtake and a third does not. -/
def overtakenTwice : List Move :=
  [.alloc (.send .console 0) 5 0, .insert 0, .alloc (.send .console 1) 1 1, .insert 1, .pop, .free 1,
    .alloc (.send .console 1) 1 2, .insert 1, .pop, .free 1, .alloc (.send .console 1) 1 3, .insert 1, .pop]

theorem bypassed_counts_overtaking_overtakenTwice :
    ∃ u : Usage 4, run? overtakenTwice (ofFairness (.bounded 2)) = some u ∧ u.departures.map (·.number) = [1, 2, 0] ∧
      ∃ before d, u.departures = before ++ [d] ∧ d.task.isSleep = false ∧
        d.task.bypassed.toNat = min 255 (departedLater before d.number) ∧ departedLater before d.number ≤ 2 := by
  obtain ⟨u, ran⟩ : ∃ u : Usage 4, run? overtakenTwice (ofFairness (.bounded 2)) = some u :=
    Option.isSome_iff_exists.mp (by decide +kernel)
  have numbers : (run? overtakenTwice (ofFairness (.bounded 2) : Usage 4)).map (·.departures.map (·.number)) =
      some [1, 2, 0] := by decide +kernel
  have awake : (run? overtakenTwice (ofFairness (.bounded 2) : Usage 4)).map
      (·.departures.all (·.task.isSleep = false)) = some true := by decide +kernel
  rw [ran, Option.map_some, Option.some.injEq] at numbers awake
  obtain ⟨before, d, history⟩ : ∃ before d, u.departures = before ++ [d] := by
    rcases List.eq_nil_or_concat u.departures with none | ⟨before, d, history⟩
    · simp [none] at numbers
    · exact ⟨before, d, by rw [history, List.concat_eq_append]⟩
  have unchanged : ∀ f, Move.setFairness f ∈ overtakenTwice → f = .bounded 2 := by simp [overtakenTwice]
  have sends : d.task.isSleep = false := by
    rw [history] at awake
    simpa using (List.all_eq_true.mp awake) d (by simp)
  obtain ⟨counts, limits⟩ := bypassed_counts_overtaking (by decide) (by decide) ran
  exact ⟨u, ran, numbers, before, d, history, sends, (counts before d [] history).1 sends,
    ((limits 2 rfl unchanged).1 before d [] history sends).1⟩

end AirMonitor.Usage
