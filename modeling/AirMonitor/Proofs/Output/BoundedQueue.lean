import AirMonitor.Proofs.Output.Handoff

/-!
The hand-off ring as a bounded queue. A list of at most `Q` handles serves a call by its
two ends (`serveQueue`), and a ring whose content is that list gives the same answer and
has the content that the list has then (`Queues.serve`). So the answers to a run of calls
are those of the list, however often the indices wrap around on the way
(`serves_as_queue`).
-/
namespace AirMonitor

/-- What is asked of a ring. -/
inductive RingCall
  | push (handle : UInt16)
  | pop
  | count
deriving DecidableEq

/-- What a caller hears. -/
inductive RingAnswer
  | added
  /-- There is no room, and the caller has its handle back. -/
  | refused (handle : UInt16)
  | taken (handle : Option UInt16)
  | counted (handles : Nat)
deriving DecidableEq

namespace RingCall
variable {σ τ : Type}

/-- The answers to a run of calls, and what is left after it. -/
def runAll (serve : σ → RingCall → RingAnswer × σ) : List RingCall → σ → List RingAnswer × σ
  | [], s => ([], s)
  | call :: calls, s =>
    let (answer, s) := serve s call
    let (answers, s) := runAll serve calls s
    (answer :: answers, s)

/-- Who gives the same answer to each call gives the same answers to a run of calls. -/
theorem runAll_related {serve : σ → RingCall → RingAnswer × σ} {serve' : τ → RingCall → RingAnswer × τ}
    {Related : σ → τ → Prop}
    (step : ∀ {s t}, Related s t → ∀ call,
      (serve s call).1 = (serve' t call).1 ∧ Related (serve s call).2 (serve' t call).2)
    (calls : List RingCall) {s : σ} {t : τ} (related : Related s t) :
    (runAll serve calls s).1 = (runAll serve' calls t).1 ∧
      Related (runAll serve calls s).2 (runAll serve' calls t).2 := by
  induction calls generalizing s t with
  | nil => exact ⟨rfl, related⟩
  | cons call calls ih =>
    obtain ⟨answer, onward⟩ := step related call
    obtain ⟨answers, last⟩ := ih onward
    exact ⟨congrArg₂ List.cons answer answers, last⟩

end RingCall

/-- How a list of at most `capacity` handles serves a call. The oldest handle stands first. -/
def serveQueue (capacity : Nat) (queue : List UInt16) : RingCall → RingAnswer × List UInt16
  | .push handle => if queue.length < capacity then (.added, queue ++ [handle]) else (.refused handle, queue)
  | .pop => (.taken queue.head?, queue.tail)
  | .count => (.counted queue.length, queue)

namespace HandoffRing
variable {Q : Nat} {r : HandoffRing Q} {queue : List UInt16}

/-- How a ring serves a call. -/
def serve (r : HandoffRing Q) : RingCall → RingAnswer × HandoffRing Q
  | .push handle =>
    match r.push? handle with
    | none => (.refused handle, r)
    | some s => (.added, s)
  | .pop =>
    match r.pop? with
    | none => (.taken none, r)
    | some (handle, s) => (.taken (some handle), s)
  | .count => (.counted r.length, r)

theorem fits_of_isPowerOfTwo (power : Q.isPowerOfTwo) (small : Q ≤ 2147483648) : Fits Q := by
  obtain ⟨k, rfl⟩ := power
  exact fits_of_pow (by omega)

/-- The slot of an index is what a mask leaves of it. -/
theorem slot_eq_and (power : Q.isPowerOfTwo) (index : UInt32) : slot Q index = index.toNat &&& (Q - 1) := by
  obtain ⟨k, rfl⟩ := power
  rw [Nat.and_two_pow_sub_one_eq_mod, slot]

/-- The ring holds the handles of a queue, and there is a slot for each. -/
structure Queues (r : HandoffRing Q) (queue : List UInt16) : Prop where
  content : r.toList = queue
  room : queue.length ≤ Q

theorem queues_nothing (slots : Vector UInt16 Q) (start : UInt32) : Queues ⟨slots, start, start⟩ [] where
  content := by
    rw [← List.length_eq_zero_iff, length_toList, length, UInt32.sub_self]
    rfl
  room := Nat.zero_le Q

namespace Queues

theorem length_eq (queues : Queues r queue) : r.length = queue.length := by
  rw [← length_toList, queues.content]

theorem serve_full (queues : Queues r queue) (full : queue.length = Q) (handle : UInt16) :
    r.serve (.push handle) = (.refused handle, r) := by
  rw [HandoffRing.serve, push?_full (by rw [queues.length_eq, full])]

/-- A call of the ring is served as by the queue. -/
theorem serve (fits : Fits Q) (queues : Queues r queue) (call : RingCall) :
    (r.serve call).1 = (serveQueue Q queue call).1 ∧ Queues (r.serve call).2 (serveQueue Q queue call).2 := by
  cases call with
  | push handle =>
    rw [serveQueue]
    by_cases room : queue.length < Q
    · obtain ⟨s, pushed, content⟩ := toList_push fits (queues.length_eq.trans_lt room) handle
      rw [HandoffRing.serve, pushed, if_pos room]
      refine ⟨rfl, by rw [content, queues.content], ?_⟩
      rw [List.length_append, List.length_singleton]
      exact room
    · rw [queues.serve_full (Nat.le_antisymm queues.room (Nat.not_lt.mp room)), if_neg room]
      exact ⟨rfl, queues⟩
  | pop =>
    rw [serveQueue]
    cases queue with
    | nil =>
      rw [HandoffRing.serve, pop?_empty queues.content]
      exact ⟨rfl, queues⟩
    | cons handle rest =>
      obtain ⟨s, popped, content⟩ := toList_pop queues.content
      rw [HandoffRing.serve, popped]
      exact ⟨rfl, content, Nat.le_of_succ_le queues.room⟩
  | count => exact ⟨congrArg RingAnswer.counted queues.length_eq, queues⟩

end Queues

/-- A ring that begins without handles, as a fresh one does, serves any run of calls as a queue of `Q` handles
    does, wherever its indices begin and however often they wrap around. When all slots are
    taken, a push changes nothing. -/
theorem serves_as_queue (power : Q.isPowerOfTwo) (small : Q ≤ 2147483648) (slots : Vector UInt16 Q) (start : UInt32)
    (calls : List RingCall) :
    let ring := RingCall.runAll serve calls (⟨slots, start, start⟩ : HandoffRing Q)
    let queue := RingCall.runAll (serveQueue Q) calls []
    ring.1 = queue.1 ∧ ring.2.toList = queue.2 ∧ ring.2.length = queue.2.length ∧ queue.2.length ≤ Q ∧
      (ring.2.isEmpty = true ↔ queue.2 = []) ∧
      (∀ handle, queue.2.length = Q → ring.2.serve (.push handle) = (.refused handle, ring.2)) ∧
      ∀ index, slot Q index = index.toNat &&& (Q - 1) := by
  intro ring queue
  have fits := fits_of_isPowerOfTwo power small
  obtain ⟨answers, queues⟩ : ring.1 = queue.1 ∧ Queues ring.2 queue.2 :=
    RingCall.runAll_related (fun queues call => queues.serve fits call) calls (queues_nothing slots start)
  have length := queues.length_eq
  refine ⟨answers, queues.content, length, queues.room, ?_, fun handle full => queues.serve_full full handle, slot_eq_and power⟩
  rw [isEmpty, decide_eq_true_iff, length, List.length_eq_zero_iff]

/-- The last index ahead of the wrap is the first that is used, and a push is refused on the way. -/
theorem serves_as_queue_wrapping :
    (Nat.isPowerOfTwo 2 ∧ 2 ≤ 2147483648) ∧
      (RingCall.runAll serve [.push 7, .push 8, .push 9, .count, .pop, .push 9, .pop, .pop, .pop]
          (⟨#v[0, 0], 4294967295, 4294967295⟩ : HandoffRing 2)).1 =
        [.added, .added, .refused 9, .counted 2, .taken (some 7), .added, .taken (some 8), .taken (some 9), .taken none] := by
  have power : Nat.isPowerOfTwo 2 := ⟨1, rfl⟩
  have small : 2 ≤ 2147483648 := by decide
  obtain ⟨answers, -⟩ := serves_as_queue power small #v[0, 0] 4294967295
    [.push 7, .push 8, .push 9, .count, .pop, .push 9, .pop, .pop, .pop]
  exact ⟨⟨power, small⟩, answers⟩

end HandoffRing
end AirMonitor
