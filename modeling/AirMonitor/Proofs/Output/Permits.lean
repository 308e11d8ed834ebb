import AirMonitor.Output.Pool
import Mathlib.Data.List.Nodup

/-!
What the pool keeps: every buffer has permits of known sinks only, and the semaphore
counts the buffers without permits. A lease gives all permits on one free buffer and
fills it, a release takes one permit back, and neither touches another buffer.
-/
namespace AirMonitor

namespace Buffer

/-- Only sinks hold permits. -/
def Proper (b : Buffer) : Prop := b.permits = 0 ∨ b.permits = 1 ∨ b.permits = 2 ∨ b.permits = 3

theorem isFree_iff {b : Buffer} (proper : b.Proper) : b.isFree = true ↔ ∀ sink, b.holds sink = false := by
  have cases_all : (∀ sink, b.holds sink = false) ↔ b.holds .console = false ∧ b.holds .wifi = false :=
    ⟨fun all => ⟨all _, all _⟩, fun both sink => by cases sink; exacts [both.1, both.2]⟩
  rw [cases_all]
  simp only [isFree, holds]
  rcases proper with bits | bits | bits | bits <;> simp only [bits] <;> decide

/-- A buffer without the permit of a sink. -/
def without (sink : SinkId) (b : Buffer) : Buffer := { b with permits := b.permits &&& ~~~sink.bit }

@[simp] theorem bytes_without (sink : SinkId) (b : Buffer) : (b.without sink).bytes = b.bytes := rfl

theorem proper_without {b : Buffer} (proper : b.Proper) (sink : SinkId) : (b.without sink).Proper := by
  simp only [Proper, without]
  rcases proper with bits | bits | bits | bits <;> cases sink <;> simp only [bits] <;> decide

theorem holds_without {b : Buffer} (proper : b.Proper) (sink other : SinkId) :
    (b.without sink).holds other = (b.holds other && decide (other ≠ sink)) := by
  simp only [holds, without]
  rcases proper with bits | bits | bits | bits <;> cases sink <;> cases other <;> simp only [bits] <;> decide

/-- Taking a permit back makes the buffer free if it was the last. -/
theorem isFree_without {b : Buffer} (proper : b.Proper) {sink : SinkId} (held : b.holds sink = true) :
    (b.without sink).isFree = decide (b.permits = sink.bit) := by
  simp only [holds] at held
  simp only [isFree, without]
  rcases proper with bits | bits | bits | bits <;> cases sink <;> simp only [bits] at held ⊢ <;> revert held <;> decide

theorem proper_fill (length : Nat) (message : Bytes) (b : Buffer) : (b.fill length message).Proper :=
  .inr (.inr (.inr rfl))

theorem holds_fill (length : Nat) (message : Bytes) (b : Buffer) (sink : SinkId) :
    (b.fill length message).holds sink = true := by
  show decide (allPermits &&& sink.bit ≠ 0) = true
  cases sink <;> decide

theorem holds_blank (length : Nat) (sink : SinkId) : (blank length).holds sink = false := by
  show decide ((0 : UInt8) &&& sink.bit ≠ 0) = false
  cases sink <;> decide

theorem isFree_fill (length : Nat) (message : Bytes) (b : Buffer) : (b.fill length message).isFree = false := rfl

end Buffer

namespace BufferPool
variable {B L : Nat}

/-- A sink holds its permit on a buffer. -/
def holds (p : BufferPool B L) (sink : SinkId) (index : UInt16) : Bool := p.permits index &&& sink.bit ≠ 0

/-- The message in a buffer, whoever may read it. -/
def content (p : BufferPool B L) (index : UInt16) : Bytes := (p.buffers[index.toNat]?.map Buffer.bytes).getD []

theorem holds_eq (p : BufferPool B L) (sink : SinkId) (index : UInt16) :
    p.holds sink index = (p.buffers[index.toNat]?.map (·.holds sink)).getD false := by
  unfold holds permits
  split
  · next b found => simp [found, Buffer.holds]
  · next absent =>
    cases sink <;> simp [absent]

theorem inside_of_holds {p : BufferPool B L} {sink : SinkId} {index : UInt16} (held : p.holds sink index = true) :
    index.toNat < B := by
  rw [holds_eq] at held
  by_contra outside
  rw [Vector.getElem?_eq_none (by omega)] at held
  simp at held

theorem payload?_eq (p : BufferPool B L) (index : UInt16) (sink : SinkId) :
    p.payload? index sink = if p.holds sink index then some (p.content index) else none := by
  rw [payload?, holds_eq, content]
  cases p.buffers[index.toNat]? <;> simp

/-- The pool after one buffer was rewritten. -/
theorem holds_set (p : BufferPool B L) {i : Nat} (inside : i < B) (b : Buffer) (free : Semaphore) (sink : SinkId)
    (index : UInt16) :
    (⟨p.buffers.set i b, free⟩ : BufferPool B L).holds sink index =
      if index.toNat = i then b.holds sink else p.holds sink index := by
  simp only [holds_eq, Vector.getElem?_set, eq_comm (a := i)]
  split <;> rfl

theorem content_set (p : BufferPool B L) {i : Nat} (inside : i < B) (b : Buffer) (free : Semaphore) (index : UInt16) :
    (⟨p.buffers.set i b, free⟩ : BufferPool B L).content index =
      if index.toNat = i then b.bytes else p.content index := by
  simp only [content, Vector.getElem?_set, eq_comm (a := i)]
  split <;> rfl

/-- The permits are those of sinks, and the semaphore counts the buffers without any. -/
structure Sound (p : BufferPool B L) : Prop where
  small : B < 65536
  proper : ∀ b ∈ p.buffers, b.Proper
  counted : p.free.permits.toNat = p.buffers.countP Buffer.isFree

theorem sound_empty (small : B < 65536) : ({} : BufferPool B L).Sound where
  small := small
  proper := by
    intro b member
    rw [(Vector.mem_replicate.mp member).2]
    exact .inl rfl
  counted := by
    have blank : (Buffer.blank L).isFree = true := rfl
    rw [Vector.countP_replicate, if_pos blank, UInt64.toNat_ofNat']
    omega

theorem holds_empty (sink : SinkId) (index : UInt16) : ({} : BufferPool B L).holds sink index = false := by
  rw [holds_eq]
  by_cases inside : index.toNat < B
  · rw [Vector.getElem?_replicate, if_pos inside]
    exact Buffer.holds_blank L sink
  · rw [Vector.getElem?_eq_none (by omega)]
    rfl

variable {p : BufferPool B L}

namespace Sound

theorem toNat_index (sound : p.Sound) {i : Nat} (inside : i < B) : (UInt16.ofNat i).toNat = i := by
  rw [UInt16.toNat_ofNat']
  have := sound.small
  omega

/-- A buffer is free if no sink holds a permit on it. -/
theorem free_iff (sound : p.Sound) {i : Nat} (inside : i < B) :
    p.buffers[i].isFree = true ↔ ∀ sink, p.holds sink (.ofNat i) = false := by
  rw [Buffer.isFree_iff (sound.proper _ (Vector.getElem_mem inside))]
  simp only [holds_eq, sound.toNat_index inside, Vector.getElem?_eq_getElem inside, Option.map_some, Option.getD_some]

theorem count_le (sound : p.Sound) : p.free.permits.toNat ≤ B := by
  rw [sound.counted]
  exact Vector.countP_le_size

/-- One buffer is rewritten and the semaphore follows. -/
theorem after_set (sound : p.Sound) {i : Nat} (inside : i < B) {b : Buffer} (proper : b.Proper) {free : Semaphore}
    (follows : free.permits.toNat + (if p.buffers[i].isFree then 1 else 0) =
      p.free.permits.toNat + (if b.isFree then 1 else 0)) :
    (⟨p.buffers.set i b, free⟩ : BufferPool B L).Sound := by
  refine ⟨sound.small, ?_, ?_⟩
  · intro other member
    have member' : other ∈ p.buffers.set i b inside := member
    rcases Vector.mem_or_eq_of_mem_set member' with old | rfl
    · exact sound.proper other old
    · exact proper
  · show free.permits.toNat = (p.buffers.set i b).countP Buffer.isFree
    rw [Vector.countP_set]
    rw [sound.counted] at follows
    have counts : p.buffers[i].isFree = true → 0 < p.buffers.countP Buffer.isFree := by
      intro is_free
      exact Vector.countP_pos_iff.mpr ⟨_, Vector.getElem_mem inside, is_free⟩
    by_cases is_free : p.buffers[i].isFree = true
    · have := counts is_free
      rw [if_pos is_free] at follows ⊢
      omega
    · rw [if_neg is_free] at follows ⊢
      omega

end Sound

theorem no_lease (none_free : p.available = 0) (message : Bytes) : p.lease? message = none := by
  have zero : p.free.permits = 0 := UInt64.toNat_inj.mp none_free
  simp [lease?, Semaphore.acquire?, zero]

/-- A scan that finds a place finds the first. -/
theorem first_of_scan {test : Buffer → Bool} {buffers : Vector Buffer B} {i : Nat} {inside : i < B}
    (found : buffers.findFinIdx? test = some ⟨i, inside⟩) :
    test buffers[i] = true ∧ ∀ j (within : j < B), j < i → test buffers[j] = false := by
  obtain ⟨buffers, rfl⟩ := buffers
  rw [Vector.findFinIdx?_mk, Fin.cast_refl, Option.map_id, id, Array.findFinIdx?_eq_some_iff] at found
  obtain ⟨hit, missed⟩ := found
  refine ⟨hit, ?_⟩
  intro j within less
  exact Bool.eq_false_iff.mpr (missed ⟨j, within⟩ less)

/-- A permit that is not held stays back. -/
theorem release_lacking {sink : SinkId} {index : UInt16} (lacks : p.holds sink index = false) :
    p.release index sink = (false, p) := by
  unfold release
  split
  · next inside =>
    have unheld : ¬ p.buffers[index.toNat].holds sink = true := by
      simpa [holds_eq, Vector.getElem?_eq_getElem inside] using lacks
    rw [if_neg unheld]
  · rfl

namespace Sound

/-- The scan finds a free buffer whenever the semaphore counts one. -/
theorem scan_isSome (sound : p.Sound) : (p.buffers.findFinIdx? Buffer.isFree).isSome = true ↔ 0 < p.available := by
  rw [Vector.isSome_findFinIdx?, Vector.any_eq_true', available, Semaphore.available, sound.counted]
  exact Vector.countP_pos_iff.symm

/-- Taking a permit back tells whether the buffer became free, and the semaphore follows. -/
theorem release_held (sound : p.Sound) {sink : SinkId} {index : UInt16} (held : p.holds sink index = true)
    (inside : index.toNat < B) :
    p.buffers[index.toNat].holds sink = true ∧
      ∃ free : Semaphore,
        p.release index sink = ((p.buffers[index.toNat].without sink).isFree,
          ⟨p.buffers.set index.toNat (p.buffers[index.toNat].without sink), free⟩) ∧
        free.permits.toNat = p.free.permits.toNat + (p.buffers[index.toNat].without sink).isFree.toNat := by
  have holder : p.buffers[index.toNat].holds sink = true := by
    simpa [holds_eq, Vector.getElem?_eq_getElem inside] using held
  refine ⟨holder, ?_⟩
  rw [Buffer.isFree_without (sound.proper _ (Vector.getElem_mem inside)) holder]
  simp only [release, dif_pos inside, holder, if_true]
  by_cases last : p.buffers[index.toNat].permits = sink.bit
  · refine ⟨p.free.release, by rw [if_pos last, decide_eq_true last]; rfl, ?_⟩
    have := sound.count_le
    have := sound.small
    rw [Semaphore.release, UInt64.toNat_add, show (1 : UInt64).toNat = 1 from rfl, decide_eq_true last, Bool.toNat_true]
    omega
  · refine ⟨p.free, by rw [if_neg last, decide_eq_false last]; rfl, ?_⟩
    rw [decide_eq_false last]
    rfl

/-- A lease takes a free buffer while there is one, fills it and gives every sink a permit on it. -/
theorem after_lease (sound : p.Sound) (some_free : p.available ≠ 0) (message : Bytes) :
    ∃ leased q, p.lease? message = some (leased, q) ∧ q.Sound ∧
      leased.index.toNat < B ∧ leased.truncated = decide (L < message.length) ∧
      (∀ sink, p.holds sink leased.index = false) ∧
      (∀ sink k, q.holds sink k = if k = leased.index then true else p.holds sink k) ∧
      ∀ k, q.content k = if k = leased.index then message.take L else p.content k := by
  obtain ⟨⟨i, inside⟩, found⟩ : ∃ i, p.buffers.findFinIdx? Buffer.isFree = some i :=
    Option.isSome_iff_exists.mp (sound.scan_isSome.mpr (Nat.pos_of_ne_zero some_free))
  have is_free : p.buffers[i].isFree = true := (first_of_scan found).1
  have back : (UInt16.ofNat i).toNat = i := sound.toNat_index inside
  have index_iff : ∀ k : UInt16, k.toNat = i ↔ k = .ofNat i := by
    intro k
    rw [← UInt16.toNat_inj, back]
  have acquired : p.free.acquire? = some ⟨p.free.permits - 1⟩ := by
    refine if_neg ?_
    intro zero
    exact some_free (congrArg UInt64.toNat zero)
  refine ⟨⟨.ofNat i, min message.length L, decide (L < message.length)⟩,
    ⟨p.buffers.set i (p.buffers[i].fill L message), ⟨p.free.permits - 1⟩⟩, ?_, ?_, ?_, rfl, ?_, ?_, ?_⟩
  · simp only [lease?, acquired, found]
    rfl
  · refine sound.after_set inside (Buffer.proper_fill L message _) ?_
    have one_less : (p.free.permits - 1).toNat + 1 = p.free.permits.toNat := Semaphore.available_acquire acquired
    rw [Buffer.isFree_fill, if_pos is_free, one_less]
    rfl
  · show (UInt16.ofNat i).toNat < B
    rw [back]
    exact inside
  · exact (sound.free_iff inside).mp is_free
  · intro sink k
    rw [holds_set p inside, Buffer.holds_fill]
    simp only [index_iff]
  · intro k
    rw [content_set p inside, Buffer.bytes_fill]
    simp only [index_iff]

/-- A release takes one permit back and leaves every message where it is. -/
theorem after_release (sound : p.Sound) (index : UInt16) (sink : SinkId) :
    (p.release index sink).2.Sound ∧
      (∀ other k, (p.release index sink).2.holds other k = (p.holds other k && decide ((other, k) ≠ (sink, index)))) ∧
      ∀ k, (p.release index sink).2.content k = p.content k := by
  cases held : p.holds sink index with
  | true =>
    have inside : index.toNat < B := inside_of_holds held
    have at_index : p.buffers[index.toNat]? = some p.buffers[index.toNat] := Vector.getElem?_eq_getElem inside
    have proper := sound.proper _ (Vector.getElem_mem inside)
    obtain ⟨holder, free, result, follows⟩ := sound.release_held held inside
    have taken : p.buffers[index.toNat].isFree = false := by
      by_contra is_free
      rw [Bool.not_eq_false, Buffer.isFree_iff proper] at is_free
      simp [is_free] at holder
    rw [result]
    refine ⟨sound.after_set inside (Buffer.proper_without proper sink) ?_, ?_, ?_⟩
    · rw [taken, follows]
      cases (p.buffers[index.toNat].without sink).isFree <;> rfl
    · intro other k
      rw [holds_set p inside, Buffer.holds_without proper]
      by_cases same : k = index
      · subst same
        simp [holds_eq, at_index]
      · have apart : k.toNat ≠ index.toNat := fun equal => same (UInt16.toNat_inj.mp equal)
        simp [apart, same]
    · intro k
      rw [content_set p inside, Buffer.bytes_without]
      split
      · next same => simp [content, same, at_index]
      · rfl
  | false =>
    rw [release_lacking held]
    refine ⟨sound, ?_, fun _ => rfl⟩
    intro other k
    by_cases same : (other, k) = (sink, index)
    · obtain ⟨rfl, rfl⟩ := Prod.mk.inj same
      simpa using held
    · simp [same]

end Sound
end BufferPool
end AirMonitor
