import AirMonitor.Proofs.Output.Permits

/-!
Buffers on loan. A run of calls leases buffers and gives permits back, in any order and
whether or not a permit is held; while a lease waits, its hook makes calls of its own. What
a sink may read is told by what happened (`Kept`): a message from its lease until the permit
of the sink is back, and nothing otherwise. One lease keeps that and so does one release,
and therefore every run (`Kept.performAll`).
-/
namespace AirMonitor

/-- A call of a pool. At each turn of a lease that waits, its hook makes calls too. -/
inductive PoolCall
  | lease (message : Bytes)
  | leaseWith (turns : List (List PoolCall)) (message : Bytes)
  | release (index : UInt16) (sink : SinkId)

/-- What happens to a pool. A lease that is refused is no event. -/
inductive PoolEvent
  | leased (message : Bytes) (buffer : Leased)
  | released (index : UInt16) (sink : SinkId)
deriving DecidableEq

/-- A buffer is leased. -/
def PoolEvent.Lends (index : UInt16) : PoolEvent → Prop
  | leased _ buffer => buffer.index = index
  | released _ _ => False

namespace PoolCall
variable {B L : Nat}

/-! ### Runs -/

mutual
/-- The pool after a call. A wait that has not ended leaves it as the last turn did. -/
def perform : PoolCall → BufferPool B L → BufferPool B L
  | lease message, p => (p.lease? message).elim p Prod.snd
  | leaseWith turns message, p => (p.leaseWith (hooks turns) message).state
  | release index sink, p => (p.release index sink).2

/-- The pool after a run of calls. -/
def performAll : List PoolCall → BufferPool B L → BufferPool B L
  | [], p => p
  | call :: calls, p => performAll calls (perform call p)

/-- The hooks that make the calls of each turn. -/
def hooks : List (List PoolCall) → List (BufferPool B L → BufferPool B L)
  | [] => []
  | calls :: turns => performAll calls :: hooks turns
end

/-- The event that a message gets a buffer, if it does. -/
def leaseEvents (message : Bytes) (p : BufferPool B L) : List PoolEvent :=
  ((p.lease? message).map fun (buffer, _) => .leased message buffer).toList

mutual
/-- What happens during a call, in order. -/
def events : PoolCall → BufferPool B L → List PoolEvent
  | lease message, p => leaseEvents message p
  | leaseWith turns message, p => waitEvents turns message p
  | release index sink, _ => [.released index sink]

def allEvents : List PoolCall → BufferPool B L → List PoolEvent
  | [], _ => []
  | call :: calls, p => events call p ++ allEvents calls (perform call p)

/-- What happens while a message waits for a buffer. -/
def waitEvents : List (List PoolCall) → Bytes → BufferPool B L → List PoolEvent
  | [], message, p => leaseEvents message p
  | calls :: turns, message, p =>
    if (p.lease? message).isSome then leaseEvents message p
    else allEvents calls p ++ waitEvents turns message (performAll calls p)
end

theorem performAll_append (calls more : List PoolCall) (p : BufferPool B L) :
    performAll (calls ++ more) p = performAll more (performAll calls p) := by
  induction calls generalizing p with
  | nil => rfl
  | cons call calls ih => exact ih (perform call p)

/-- A lease that succeeds and a release keep what holds of a run. -/
structure Invariant (P : List PoolEvent → BufferPool B L → Prop) : Prop where
  lease : ∀ {past p message buffer q}, P past p → p.lease? message = some (buffer, q) →
    P (past ++ [.leased message buffer]) q
  release : ∀ {past p}, P past p → ∀ index sink, P (past ++ [.released index sink]) (p.release index sink).2

namespace Invariant
variable {P : List PoolEvent → BufferPool B L → Prop}

mutual
/-- What leases and releases keep, every call keeps. -/
theorem perform (keeps : Invariant P) (call : PoolCall) {past : List PoolEvent} {p : BufferPool B L}
    (holds : P past p) : P (past ++ call.events p) (call.perform p) := by
  cases call with
  | lease message =>
    rw [events, leaseEvents, PoolCall.perform]
    cases tried : p.lease? message with
    | none => simpa using holds
    | some leased => exact keeps.lease holds tried
  | leaseWith turns message =>
    rw [events, PoolCall.perform]
    exact keeps.wait turns message holds
  | release index sink => exact keeps.release holds index sink

theorem performAll (keeps : Invariant P) (calls : List PoolCall) {past : List PoolEvent} {p : BufferPool B L}
    (holds : P past p) : P (past ++ allEvents calls p) (PoolCall.performAll calls p) := by
  cases calls with
  | nil =>
    rw [allEvents, PoolCall.performAll, List.append_nil]
    exact holds
  | cons call calls =>
    rw [allEvents, PoolCall.performAll, ← List.append_assoc]
    exact keeps.performAll calls (keeps.perform call holds)

theorem wait (keeps : Invariant P) (turns : List (List PoolCall)) (message : Bytes) {past : List PoolEvent}
    {p : BufferPool B L} (holds : P past p) :
    P (past ++ waitEvents turns message p) (p.leaseWith (hooks turns) message).state := by
  cases turns with
  | nil =>
    rw [waitEvents, leaseEvents, BufferPool.leaseWith, hooks, AirMonitor.wait]
    cases tried : p.lease? message with
    | none => simpa using holds
    | some leased => exact keeps.lease holds tried
  | cons calls turns =>
    rw [waitEvents, leaseEvents, BufferPool.leaseWith, hooks, AirMonitor.wait]
    cases tried : p.lease? message with
    | none =>
      rw [Option.isSome_none, if_neg Bool.false_ne_true, ← List.append_assoc]
      exact keeps.wait turns message (keeps.performAll calls holds)
    | some leased => exact keeps.lease holds tried
end

end Invariant
end PoolCall

namespace BufferPool
variable {B L : Nat} {p q : BufferPool B L} {message : Bytes} {buffer : Leased}

/-! ### One lease and one release -/

/-- A message was put into the first free buffer, or as much of it as there is room for. -/
structure Lent (message : Bytes) (p : BufferPool B L) (buffer : Leased) (q : BufferPool B L) : Prop where
  inside : buffer.index.toNat < B
  free : p.permits buffer.index = 0
  lowest : ∀ k < buffer.index, p.permits k ≠ 0
  size : buffer.size = min message.length L
  truncated : buffer.truncated = decide (L < message.length)
  available : q.available + 1 = p.available

theorem permits_getElem {index : UInt16} (inside : index.toNat < B) :
    p.permits index = p.buffers[index.toNat].permits := by
  rw [permits, Vector.getElem?_eq_getElem inside]

namespace Sound

theorem lease?_isSome (sound : p.Sound) (message : Bytes) : (p.lease? message).isSome = true ↔ 0 < p.available := by
  constructor
  · intro leased
    by_contra none_free
    rw [no_lease (by omega) message] at leased
    cases leased
  · intro some_free
    obtain ⟨_, _, leased, -⟩ := sound.after_lease (by omega) message
    rw [leased]
    rfl

theorem lent (sound : p.Sound) (leased : p.lease? message = some (buffer, q)) : Lent message p buffer q := by
  unfold lease? at leased
  split at leased
  · next free i acquired found =>
    obtain ⟨rfl, rfl⟩ := Prod.mk.inj (Option.some.inj leased)
    obtain ⟨is_free, taken⟩ := first_of_scan found
    have index : (UInt16.ofNat i).toNat = i := sound.toNat_index i.isLt
    have inside : (UInt16.ofNat i).toNat < B := by
      rw [index]
      exact i.isLt
    refine ⟨inside, ?_, ?_, rfl, rfl, Semaphore.available_acquire acquired⟩
    · rw [permits_getElem inside]
      simpa [index, Buffer.isFree] using is_free
    · intro k less
      have below : k.toNat < i := by
        rw [← index]
        exact UInt16.lt_iff_toNat_lt.mp less
      have inside : k.toNat < B := Nat.lt_trans below i.isLt
      rw [permits_getElem inside]
      simpa [Buffer.isFree] using taken k.toNat inside below
  · cases leased

/-- A lease lets every sink read the message, and changes nothing for other buffers. -/
theorem payload?_lease (sound : p.Sound) (leased : p.lease? message = some (buffer, q)) :
    q.Sound ∧ (∀ sink, p.payload? buffer.index sink = none) ∧
      ∀ index sink, q.payload? index sink =
        if index = buffer.index then some (message.take L) else p.payload? index sink := by
  have some_free : p.available ≠ 0 := by
    intro none_free
    rw [no_lease none_free] at leased
    cases leased
  obtain ⟨_, _, leased', after, -, -, unheld, holds, content⟩ := sound.after_lease some_free message
  obtain ⟨rfl, rfl⟩ := Prod.mk.inj (Option.some.inj (leased.symm.trans leased'))
  refine ⟨after, ?_, ?_⟩
  · intro sink
    rw [payload?_eq, unheld, if_neg Bool.false_ne_true]
  · intro index sink
    rw [payload?_eq, payload?_eq, holds, content]
    by_cases same : index = buffer.index
    · simp [same]
    · simp [same]

/-- A release hides the message from the sink, and changes nothing for others. -/
theorem payload?_release (sound : p.Sound) (index : UInt16) (sink : SinkId) :
    (p.release index sink).2.Sound ∧
      ∀ k other, (p.release index sink).2.payload? k other =
        if (k, other) = (index, sink) then none else p.payload? k other := by
  obtain ⟨after, holds, content⟩ := sound.after_release index sink
  refine ⟨after, ?_⟩
  intro k other
  rw [payload?_eq, payload?_eq, holds, content]
  by_cases same : (k, other) = (index, sink)
  · obtain ⟨rfl, rfl⟩ := Prod.mk.inj same
    simp
  · have apart : (other, k) ≠ (sink, index) := by
      rintro equal
      obtain ⟨rfl, rfl⟩ := Prod.mk.inj equal
      exact same rfl
    simp [same, apart]

/-- A release tells whether it took the last permit, and the buffer is available if it did. -/
theorem freed (sound : p.Sound) (index : UInt16) (sink : SinkId) :
    ((p.release index sink).1 = true ↔ p.permits index ≠ 0 ∧ (p.release index sink).2.permits index = 0) ∧
      (p.release index sink).2.available = p.available + (p.release index sink).1.toNat := by
  cases held : p.holds sink index with
  | false =>
    rw [release_lacking held]
    simp
  | true =>
    have inside : index.toNat < B := inside_of_holds held
    obtain ⟨holder, free, result, follows⟩ := sound.release_held held inside
    rw [result]
    refine ⟨?_, follows⟩
    have some_permit : p.buffers[index.toNat].permits ≠ 0 := by
      intro none_left
      simp [Buffer.holds, none_left] at holder
    rw [permits_getElem inside, permits_getElem inside]
    simp [some_permit, Buffer.isFree]

end Sound

/-! ### Runs -/

/-- What sinks may read is what happened: a message from its lease until their permits are back. -/
structure Kept (past : List PoolEvent) (p : BufferPool B L) : Prop where
  sound : p.Sound
  lent : ∀ before message buffer after, past = before ++ .leased message buffer :: after →
    ∀ sink, .released buffer.index sink ∉ after → p.payload? buffer.index sink = some (message.take L)
  unlent : ∀ index, (∀ event ∈ past, ¬ event.Lends index) → ∀ sink, p.payload? index sink = none
  returned : ∀ before index sink after, past = before ++ .released index sink :: after →
    (∀ event ∈ after, ¬ event.Lends index) → p.payload? index sink = none

/-- An event is the last one or one before. -/
theorem split_concat {past before after : List PoolEvent} {last event : PoolEvent}
    (split : past ++ [last] = before ++ event :: after) :
    (after = [] ∧ past = before ∧ last = event) ∨ ∃ rest, after = rest ++ [last] ∧ past = before ++ event :: rest := by
  rcases List.eq_nil_or_concat after with rfl | ⟨rest, final, rfl⟩
  · obtain ⟨same, ends⟩ := List.append_inj' split rfl
    exact .inl ⟨rfl, same, (List.cons.inj ends).1⟩
  · rw [List.concat_eq_append, ← List.cons_append, ← List.append_assoc] at split
    obtain ⟨same, ends⟩ := List.append_inj' split rfl
    rw [List.concat_eq_append, (List.cons.inj ends).1]
    exact .inr ⟨rest, rfl, same⟩

namespace Kept
variable {past : List PoolEvent}

theorem start (small : B < 65536) : Kept [] ({} : BufferPool B L) where
  sound := sound_empty small
  lent before message buffer after split := by simp at split
  unlent index _ sink := by rw [payload?_eq, holds_empty, if_neg Bool.false_ne_true]
  returned before index sink after split := by simp at split

theorem lease (kept : Kept past p) (leased : p.lease? message = some (buffer, q)) :
    Kept (past ++ [.leased message buffer]) q := by
  obtain ⟨sound, unread, payload⟩ := kept.sound.payload?_lease leased
  refine ⟨sound, ?_, ?_, ?_⟩
  · intro before message' buffer' after split sink held
    rw [payload]
    rcases split_concat split with ⟨-, -, same⟩ | ⟨rest, rfl, earlier⟩
    · obtain ⟨rfl, rfl⟩ := PoolEvent.leased.inj same
      exact if_pos rfl
    · -- The sink still reads the earlier message, so the buffer was not free.
      have reads := kept.lent before message' buffer' rest earlier sink (fun back => held (List.mem_append_left _ back))
      have other : buffer'.index ≠ buffer.index := by
        intro same
        rw [same, unread] at reads
        cases reads
      rw [if_neg other]
      exact reads
  · intro index never sink
    have other : index ≠ buffer.index := fun same => never (.leased message buffer) (by simp) same.symm
    rw [payload, if_neg other]
    exact kept.unlent index (List.forall_mem_append.mp never).1 sink
  · intro before index sink after split never
    rcases split_concat split with ⟨-, -, same⟩ | ⟨rest, rfl, earlier⟩
    · cases same
    · have other : index ≠ buffer.index := fun same => never (.leased message buffer) (by simp) same.symm
      rw [payload, if_neg other]
      exact kept.returned before index sink rest earlier (List.forall_mem_append.mp never).1

theorem release (kept : Kept past p) (index : UInt16) (sink : SinkId) :
    Kept (past ++ [.released index sink]) (p.release index sink).2 := by
  obtain ⟨sound, payload⟩ := kept.sound.payload?_release index sink
  refine ⟨sound, ?_, ?_, ?_⟩
  · intro before message buffer after split other held
    rcases split_concat split with ⟨-, -, same⟩ | ⟨rest, rfl, earlier⟩
    · cases same
    · have apart : (buffer.index, other) ≠ (index, sink) := by
        intro same
        obtain ⟨rfl, rfl⟩ := Prod.mk.inj same
        exact held (by simp)
      rw [payload, if_neg apart]
      exact kept.lent before message buffer rest earlier other (fun back => held (List.mem_append_left _ back))
  · intro k never other
    rw [payload, kept.unlent k (List.forall_mem_append.mp never).1 other]
    exact ite_self none
  · intro before k other after split never
    rw [payload]
    rcases split_concat split with ⟨-, -, same⟩ | ⟨rest, rfl, earlier⟩
    · obtain ⟨rfl, rfl⟩ := PoolEvent.released.inj same
      exact if_pos rfl
    · rw [kept.returned before k other rest earlier (List.forall_mem_append.mp never).1]
      exact ite_self none

theorem invariant : PoolCall.Invariant (Kept (B := B) (L := L)) := ⟨fun kept => kept.lease, fun kept => kept.release⟩

theorem performAll (kept : Kept past p) (calls : List PoolCall) :
    Kept (past ++ PoolCall.allEvents calls p) (PoolCall.performAll calls p) := invariant.performAll calls kept

end Kept

/-! ### Waiting -/

/-- The pool when a message has waited for some turns. -/
def afterTurns (turns : List (List PoolCall)) (n : Nat) (p : BufferPool B L) : BufferPool B L :=
  PoolCall.performAll (turns.take n).flatten p

theorem afterTurns_succ (calls : List PoolCall) (turns : List (List PoolCall)) (n : Nat) (p : BufferPool B L) :
    p.afterTurns (calls :: turns) (n + 1) = (PoolCall.performAll calls p).afterTurns turns n := by
  rw [afterTurns, List.take_succ_cons, List.flatten_cons, PoolCall.performAll_append]
  rfl

theorem Sound.leaseWith_at_once (sound : p.Sound) (some_free : p.available ≠ 0) (turns : List (List PoolCall))
    (message : Bytes) :
    ∃ buffer q, p.lease? message = some (buffer, q) ∧
      p.leaseWith (PoolCall.hooks turns) message = ⟨some buffer, q, PoolCall.hooks turns⟩ := by
  obtain ⟨buffer, q, leased, -⟩ := sound.after_lease some_free message
  exact ⟨buffer, q, leased, wait_of_attempt leased _⟩

theorem leaseWith_turn (none_free : p.available = 0) (calls : List PoolCall) (turns : List (List PoolCall))
    (message : Bytes) :
    p.leaseWith (PoolCall.hooks (calls :: turns)) message =
      (PoolCall.performAll calls p).leaseWith (PoolCall.hooks turns) message := by
  rw [leaseWith, PoolCall.hooks, wait, no_lease none_free]
  rfl

/-- A message gets a buffer at the first turn at which one is available, just as one that
    does not wait, or it waits for all turns in vain. -/
theorem Kept.leaseWith {past : List PoolEvent} (kept : Kept past p) (turns : List (List PoolCall)) (message : Bytes) :
    (∃ n ≤ turns.length, (∀ k < n, (p.afterTurns turns k).available = 0) ∧
      ∃ buffer q, (p.afterTurns turns n).lease? message = some (buffer, q) ∧
        p.leaseWith (PoolCall.hooks turns) message = ⟨some buffer, q, PoolCall.hooks (turns.drop n)⟩) ∨
    (∀ n ≤ turns.length, (p.afterTurns turns n).available = 0) ∧
      p.leaseWith (PoolCall.hooks turns) message = ⟨none, p.afterTurns turns turns.length, []⟩ := by
  induction turns generalizing past p with
  | nil =>
    by_cases none_free : p.available = 0
    · refine .inr ⟨?_, ?_⟩
      · intro n at_most
        rw [Nat.le_zero.mp at_most]
        exact none_free
      · rw [BufferPool.leaseWith, PoolCall.hooks, wait, no_lease none_free]
        rfl
    · exact .inl ⟨0, Nat.le_refl 0, nofun, kept.sound.leaseWith_at_once none_free [] message⟩
  | cons calls turns ih =>
    by_cases none_free : p.available = 0
    · rw [leaseWith_turn none_free]
      rcases ih (kept.performAll calls) with ⟨n, within, before, found⟩ | ⟨never, waits⟩
      · refine .inl ⟨n + 1, Nat.succ_le_succ within, ?_, ?_⟩
        · intro k less
          cases k with
          | zero => exact none_free
          | succ k =>
            rw [afterTurns_succ]
            exact before k (Nat.lt_of_succ_lt_succ less)
        · rw [afterTurns_succ, List.drop_succ_cons]
          exact found
      · refine .inr ⟨?_, ?_⟩
        · intro n within
          cases n with
          | zero => exact none_free
          | succ n =>
            rw [afterTurns_succ]
            exact never n (Nat.le_of_succ_le_succ within)
        · rw [List.length_cons, afterTurns_succ]
          exact waits
    · exact .inl ⟨0, Nat.zero_le _, nofun, kept.sound.leaseWith_at_once none_free (calls :: turns) message⟩

/-! ### The law of loans -/

/-- After any run of calls the semaphore counts the buffers without permits. A message gets
    a buffer just if there is one, the first one and with one scan; while it waits it takes
    the first chance. It can be read by a sink from then on until the sink's permit is back,
    and nothing else can be read. A release says whether it took the last permit, and makes
    the buffer available if it did. -/
theorem lent_until_returned (small : B < 65535) (calls : List PoolCall) :
    let p : BufferPool B L := PoolCall.performAll calls {}
    let past := PoolCall.allEvents calls ({} : BufferPool B L)
    p.available = p.buffers.countP Buffer.isFree ∧
    ((p.buffers.findFinIdx? Buffer.isFree).isSome = true ↔ 0 < p.available) ∧
    (∀ message, ((p.lease? message).isSome = true ↔ 0 < p.available) ∧
      ∀ buffer q, p.lease? message = some (buffer, q) → Lent message p buffer q) ∧
    (∀ turns message,
      (∃ n ≤ turns.length, (∀ k < n, (p.afterTurns turns k).available = 0) ∧
        ∃ buffer q, (p.afterTurns turns n).lease? message = some (buffer, q) ∧
          p.leaseWith (PoolCall.hooks turns) message = ⟨some buffer, q, PoolCall.hooks (turns.drop n)⟩) ∨
      (∀ n ≤ turns.length, (p.afterTurns turns n).available = 0) ∧
        p.leaseWith (PoolCall.hooks turns) message = ⟨none, p.afterTurns turns turns.length, []⟩) ∧
    (∀ before message buffer after, past = before ++ .leased message buffer :: after →
      ∀ sink, .released buffer.index sink ∉ after → p.payload? buffer.index sink = some (message.take L)) ∧
    (∀ index, (∀ event ∈ past, ¬ event.Lends index) → ∀ sink, p.payload? index sink = none) ∧
    (∀ before index sink after, past = before ++ .released index sink :: after →
      (∀ event ∈ after, ¬ event.Lends index) → p.payload? index sink = none) ∧
    ∀ index sink,
      ((p.release index sink).1 = true ↔ p.permits index ≠ 0 ∧ (p.release index sink).2.permits index = 0) ∧
      (p.release index sink).2.available = p.available + (p.release index sink).1.toNat := by
  intro p past
  have kept : Kept past p := (Kept.start (by omega)).performAll calls
  refine ⟨kept.sound.counted, kept.sound.scan_isSome, ?_, kept.leaseWith, kept.lent, kept.unlent, kept.returned, ?_⟩
  · exact fun message => ⟨kept.sound.lease?_isSome message, fun buffer q => kept.sound.lent⟩
  · exact kept.sound.freed

/-- A message that is too long and a short one, permits given back that are not held, and a
    third message that waits for a permit. -/
def reused : List PoolCall :=
  [.lease [1, 2, 3, 4, 5], .lease [6], .release 9 .wifi, .release 0 .console, .release 0 .console,
    .leaseWith [[.release 0 .wifi]] [7]]

theorem lent_until_returned_reused :
    let p : BufferPool 2 4 := PoolCall.performAll reused {}
    p.available = 0 ∧ p.buffers.countP Buffer.isFree = 0 ∧ (p.lease? [8]).isSome = false ∧
      p.payload? 0 .console = some [7] ∧ p.payload? 1 .wifi = some [6] ∧ p.payload? 9 .wifi = none ∧
      (p.release 0 .wifi).1 = false ∧ (p.release 0 .wifi).2.available = 0 := by
  intro p
  obtain ⟨counted, -, leases, -, lent, unlent, -, releases⟩ := lent_until_returned (B := 2) (L := 4) (by decide) reused
  have none_free : p.available = 0 := by decide +kernel
  let past := PoolCall.allEvents reused ({} : BufferPool 2 4)
  refine ⟨none_free, counted.symm.trans none_free, ?_, ?_, ?_, ?_, by decide +kernel, ?_⟩
  · rw [Bool.eq_false_iff, ne_eq, (leases [8]).1]
    exact Nat.not_lt_of_le (Nat.le_of_eq none_free)
  · exact lent (past.take 6) [7] ⟨0, 1, false⟩ [] (by decide +kernel) .console (by decide)
  · exact lent (past.take 1) [6] ⟨1, 1, false⟩ (past.drop 2) (by decide +kernel) .wifi (by decide +kernel)
  · have events : past = [.leased [1, 2, 3, 4, 5] ⟨0, 4, true⟩, .leased [6] ⟨1, 1, false⟩, .released 9 .wifi,
        .released 0 .console, .released 0 .console, .released 0 .wifi, .leased [7] ⟨0, 1, false⟩] := by decide +kernel
    refine unlent 9 ?_ .wifi
    change ∀ event ∈ past, _
    simp [events, PoolEvent.Lends]
  · rw [(releases 0 .wifi).2]
    decide +kernel

end BufferPool
end AirMonitor
