import AirMonitor.Log.Stream
import AirMonitor.Proofs.Window
import Mathlib.Tactic.Set

/-!
A log stream as the list of its entries, the oldest first. What a slot keeps behind a
message does not count (`LogEntry.clean`). As long as all slots between the indices are
ready (`LogStream.Sound`), a push appends its entry or counts a drop (`push_cases`), and
draining takes all entries (`Sound.drains`).
-/
namespace AirMonitor
open Window

namespace LogEntry

/-- The entry with a message, or with as much of it as there is room for, and nothing behind it. -/
def of (time : Instant) (level : LogLevel) (message : Bytes) : LogEntry :=
  let kept := message.take room
  ⟨time, level, kept.length, kept⟩

/-- An entry without what is behind its message. -/
def clean (e : LogEntry) : LogEntry := { e with store := e.bytes }

theorem clean_write (time : Instant) (level : LogLevel) (message : Bytes) (e : LogEntry) :
    (e.write time level message).clean = .of time level message := by
  rw [clean, bytes_write]
  rfl

/-- The line of an entry shows its message only. -/
theorem toLine_clean (space : Nat) (e : LogEntry) : e.clean.toLine space = e.toLine space := by
  have same : e.clean.bytes = e.bytes := List.take_of_length_le (List.length_take_le _ _)
  simp only [toLine, message, same]
  rfl

end LogEntry

namespace LogStream
variable {N : Nat}

/-- The slots from the next entry to be drained to the last one that was accepted. -/
def content (s : LogStream N) : List LogEntry := window s.entries .blank s.drained s.pending

/-- The entries that a drain takes. -/
def held (s : LogStream N) : List LogEntry := s.drainAll.1.map .clean

/-- No more entries are pending than the stream has room for, and all of them are ready. -/
structure Sound (s : LogStream N) : Prop where
  room : s.pending ≤ N % 4294967296
  ready : window s.ready false s.drained s.pending = List.replicate s.pending true

theorem pending_fresh : ({} : LogStream N).pending = 0 := distance_eq_zero.mpr rfl

theorem sound_fresh : ({} : LogStream N).Sound :=
  ⟨pending_fresh.trans_le (Nat.zero_le _), by rw [pending_fresh]; rfl⟩

theorem held_fresh : ({} : LogStream N).held = [] := by
  rw [held, drainAll, pending_fresh]
  rfl

/-- A power of two that leaves any room divides 2^32. -/
theorem divides_of_room (power : N.isPowerOfTwo) (room : 0 < N % 4294967296) : N ∣ 4294967296 ∧ N < 4294967296 := by
  obtain ⟨k, rfl⟩ := power
  by_cases small : k < 32
  · exact ⟨Nat.pow_dvd_pow 2 (by omega : k ≤ 32), Nat.pow_lt_pow_right (by omega : 1 < 2) small⟩
  · have none_left : 2 ^ k % 4294967296 = 0 := Nat.mod_eq_zero_of_dvd (Nat.pow_dvd_pow 2 (by omega : 32 ≤ k))
    omega

theorem reaches (s : LogStream N) : s.drained + .ofNat s.pending = s.written := add_distance s.written s.drained

variable {s : LogStream N}

/-! ### Draining -/

theorem Sound.drain (power : N.isPowerOfTwo) (sound : s.Sound) {n : Nat} (some_left : s.pending = n + 1) :
    ∃ entry rest, s.drain? = some (entry, rest) ∧ s.content = entry :: rest.content ∧ rest.Sound ∧
      rest.pending = n := by
  have room := sound.room
  obtain ⟨divides, -⟩ := divides_of_room power (by omega)
  have inside : n < N := by
    have := Nat.mod_le N 4294967296
    omega
  have differ : s.drained ≠ s.written := by
    intro same
    have none_left := distance_eq_zero.mpr same
    rw [← pending] at none_left
    omega
  obtain ⟨first, others⟩ : s.ready[slot N s.drained]?.getD false = true ∧
      window s.ready false (s.drained + 1) n = List.replicate n true := by
    have ready := sound.ready
    rw [some_left, window_succ, List.replicate_succ] at ready
    exact List.cons.inj ready
  set rest : LogStream N :=
    { s with ready := s.ready.setIfInBounds (slot N s.drained) false, drained := s.drained + 1 }
  have left : rest.pending = n := distance_sub_one some_left
  refine ⟨s.entries[slot N s.drained]?.getD .blank, rest, ?_, ?_, ⟨by omega, ?_⟩, left⟩
  · rw [drain?, if_neg (by simp [differ, first])]
  · rw [content, content, left, some_left, window_succ]
    rfl
  · rw [left]
    exact (window_set_before divides inside false).trans others

theorem Sound.drainUpTo (power : N.isPowerOfTwo) {n : Nat} (sound : s.Sound) (all : s.pending = n) :
    (s.drainUpTo n).1 = s.content ∧ (s.drainUpTo n).2.Sound ∧ (s.drainUpTo n).2.pending = 0 := by
  induction n generalizing s with
  | zero =>
    refine ⟨?_, sound, all⟩
    rw [content, all]
    rfl
  | succ n ih =>
    obtain ⟨entry, rest, drained, content, still, left⟩ := sound.drain power all
    obtain ⟨entries, after, none_left⟩ := ih still left
    rw [LogStream.drainUpTo, drained]
    exact ⟨by rw [content, ← entries], after, none_left⟩

/-- Draining takes all entries and leaves none. -/
theorem Sound.drains (power : N.isPowerOfTwo) (sound : s.Sound) :
    s.drainAll.1 = s.content ∧ s.drainAll.2.Sound ∧ s.drainAll.2.pending = 0 := sound.drainUpTo power rfl

theorem Sound.held_eq (power : N.isPowerOfTwo) (sound : s.Sound) : s.held = s.content.map .clean := by
  rw [held, (sound.drains power).1]

theorem Sound.length_held (power : N.isPowerOfTwo) (sound : s.Sound) : s.held.length = s.pending := by
  simp [sound.held_eq power, content]

theorem Sound.held_drained (power : N.isPowerOfTwo) (sound : s.Sound) : s.drainAll.2.held = [] := by
  obtain ⟨-, after, none_left⟩ := sound.drains power
  rw [← List.length_eq_zero_iff, after.length_held power, none_left]

theorem dropped_drain {entry : LogEntry} {rest : LogStream N} (drained : s.drain? = some (entry, rest)) :
    rest.dropped = s.dropped := by
  simp only [drain?] at drained
  split_ifs at drained
  cases drained
  rfl

theorem dropped_drainUpTo (limit : Nat) (s : LogStream N) : (s.drainUpTo limit).2.dropped = s.dropped := by
  induction limit generalizing s with
  | zero => rfl
  | succ limit ih =>
    rw [LogStream.drainUpTo]
    cases drained : s.drain? with
    | none => rfl
    | some taken => exact (ih taken.2).trans (dropped_drain drained)

/-! ### Counting and pushing -/

@[simp] theorem dropped_resetDropped (s : LogStream N) : s.resetDropped.dropped = 0 := rfl

/-- The count of drops has no part in what a stream holds. -/
theorem Sound.counting (sound : s.Sound) (dropped : UInt32) : ({ s with dropped } : LogStream N).Sound :=
  ⟨sound.room, sound.ready⟩

theorem Sound.held_counting (power : N.isPowerOfTwo) (sound : s.Sound) (dropped : UInt32) :
    ({ s with dropped } : LogStream N).held = s.held := by
  rw [(sound.counting dropped).held_eq power, sound.held_eq power]
  rfl

/-- A push counts a drop, or appends its entry. -/
theorem Sound.push_cases (power : N.isPowerOfTwo) (sound : s.Sound) (time : Instant) (level : LogLevel)
    (message : Bytes) :
    s.push time level message = (false, { s with dropped := s.dropped + 1 }) ∨
    ∃ after, s.push time level message = (true, after) ∧ after.Sound ∧
      after.held = s.held ++ [.of time level message] ∧ after.dropped = s.dropped := by
  rw [push]
  by_cases full : UInt32.ofNat N ≤ s.written - s.drained
  · exact .inl (if_pos full)
  · right
    rw [if_neg full]
    have free : s.pending < N % 4294967296 := by
      rw [UInt32.not_le, UInt32.lt_iff_toNat_lt, UInt32.toNat_ofNat'] at full
      exact full
    obtain ⟨divides, small⟩ := divides_of_room power (by omega)
    have inside : s.pending < N := by
      have := Nat.mod_le N 4294967296
      omega
    set entry := (s.entries[slot N s.written]?.getD .blank).write time level message
    set after : LogStream N :=
      { s with entries := s.entries.setIfInBounds (slot N s.written) entry,
               ready := s.ready.setIfInBounds (slot N s.written) true, written := s.written + 1 }
    have longer : after.pending = s.pending + 1 := distance_add_one (by show s.pending + 1 < _; omega)
    have content : after.content = s.content ++ [entry] := by
      rw [LogStream.content, longer]
      exact window_push divides inside s.reaches entry
    have still : after.Sound := by
      refine ⟨by omega, ?_⟩
      rw [longer, List.replicate_succ', ← sound.ready]
      exact window_push divides inside s.reaches true
    refine ⟨after, rfl, still, ?_, rfl⟩
    rw [still.held_eq power, sound.held_eq power, content, List.map_append, List.map_singleton, LogEntry.clean_write]

end LogStream
end AirMonitor
