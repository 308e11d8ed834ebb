import AirMonitor.Proofs.Log.Ring
import Mathlib.Data.List.Forall2

/-!
A log stream as a queue of records. A record is a message as it was logged, and an entry
shows it with as much of the message as there is room for (`LogEntry.Shows`). A call adds at
most one record at the end and takes at most one entry from the front (`Holds.perform`), so
over a run the entries that are drained show the records that were accepted, in order
(`drained_in_order`). Nothing wraps around in the queue, whatever the indices do.
-/
namespace AirMonitor
open Window

/-- A message as it is logged, in full. -/
structure LogRecord where
  time : Instant
  level : LogLevel
  message : Bytes
deriving DecidableEq

/-- An entry with a record in it and nothing else. -/
def LogRecord.entry (r : LogRecord) : LogEntry := .of r.time r.level r.message

namespace LogEntry

/-- The entry shows a record: its time, its level and what there is room for of its message. -/
structure Shows (e : LogEntry) (r : LogRecord) : Prop where
  time : e.time = r.time
  level : e.level = r.level
  bytes : e.bytes = r.message.take room
  text : e.message = (Utf8.text? (r.message.take room)).getD "<invalid utf8>"

theorem shows_of_clean {e : LogEntry} {r : LogRecord} (same : e.clean = r.entry) : e.Shows r := by
  have bytes : e.bytes = r.message.take room := congrArg store same
  refine ⟨congrArg LogEntry.time same, congrArg LogEntry.level same, bytes, ?_⟩
  rw [message, bytes]

theorem shows_entry (r : LogRecord) : r.entry.Shows r := by
  have kept : r.entry.bytes = r.message.take room := List.take_length
  refine shows_of_clean ?_
  rw [clean, kept]
  rfl

theorem Shows.short {e : LogEntry} {r : LogRecord} (shows : e.Shows r) : e.bytes.length ≤ room := by
  rw [shows.bytes]
  exact List.length_take_le _ _

end LogEntry

/-- What is done with a stream. -/
inductive LogCall
  | push (record : LogRecord)
  | drain
deriving DecidableEq

namespace LogStream
variable {N : Nat}

def perform (s : LogStream N) : LogCall → LogStream N
  | .push r => (s.push r.time r.level r.message).2
  | .drain => s.drain?.elim s Prod.snd

/-- The record that a call adds. -/
def accepts (s : LogStream N) : LogCall → List LogRecord
  | .push r => if (s.push r.time r.level r.message).1 then [r] else []
  | .drain => []

/-- The entry that a call takes. -/
def takes (s : LogStream N) : LogCall → List LogEntry
  | .push _ => []
  | .drain => (s.drain?.map Prod.fst).toList

/-- The stream after a run of calls. -/
def performAll (calls : List LogCall) (s : LogStream N) : LogStream N := calls.foldl perform s

/-- The records that were accepted in a run, in order. -/
def accepted : List LogCall → LogStream N → List LogRecord
  | [], _ => []
  | call :: calls, s => s.accepts call ++ accepted calls (s.perform call)

/-- The entries that were drained in a run, in order. -/
def taken : List LogCall → LogStream N → List LogEntry
  | [], _ => []
  | call :: calls, s => s.takes call ++ taken calls (s.perform call)

variable {s : LogStream N} {queue : List LogRecord}

/-! ### One call -/

/-- The stream holds the records of a queue, the oldest first. -/
structure Holds (s : LogStream N) (queue : List LogRecord) : Prop where
  sound : s.Sound
  held : s.held = queue.map LogRecord.entry

theorem holds_fresh : ({} : LogStream N).Holds [] := ⟨sound_fresh, held_fresh⟩

theorem Sound.refused_iff (sound : s.Sound) (small : N ≤ 2147483648) (time : Instant) (level : LogLevel)
    (message : Bytes) : (s.push time level message).1 = false ↔ s.pending = N := by
  have room := sound.room
  have full : UInt32.ofNat N ≤ s.written - s.drained ↔ N ≤ s.pending := by
    rw [UInt32.le_iff_toNat_le, UInt32.toNat_ofNat', pending]
    omega
  rw [push]
  split
  · next refuses => simpa using Nat.le_antisymm (by omega) (full.mp refuses)
  · next admits =>
    rw [full] at admits
    simp only [Bool.true_eq_false, false_iff]
    omega

theorem Holds.length (holds : s.Holds queue) (power : N.isPowerOfTwo) : s.pending = queue.length := by
  rw [← holds.sound.length_held power, holds.held, List.length_map]

/-- A drain finds nothing, or it takes the entry of the oldest record. -/
theorem Holds.drain_cases (holds : s.Holds queue) (power : N.isPowerOfTwo) :
    (queue = [] ∧ s.drain? = none) ∨
      ∃ r rest e after, queue = r :: rest ∧ s.drain? = some (e, after) ∧ e.Shows r ∧ after.Holds rest := by
  have length := holds.length power
  cases pending : s.pending with
  | zero =>
    have none_left : queue = [] := List.length_eq_zero_iff.mp (length.symm.trans pending)
    have same : s.drained = s.written := distance_eq_zero.mp pending
    exact .inl ⟨none_left, if_pos (.inl same)⟩
  | succ n =>
    obtain ⟨e, after, drained, content, sound, -⟩ := holds.sound.drain power pending
    have held := holds.held
    rw [holds.sound.held_eq power, content, List.map_cons, ← sound.held_eq power] at held
    cases queue with
    | nil => cases held
    | cons r rest =>
      obtain ⟨first, others⟩ := List.cons.inj held
      exact .inr ⟨r, rest, e, after, rfl, drained, LogEntry.shows_of_clean first, sound, others⟩

/-- A push counts a drop, or it adds its record. -/
theorem Holds.push_cases (holds : s.Holds queue) (power : N.isPowerOfTwo) (r : LogRecord) :
    (s.push r.time r.level r.message = (false, { s with dropped := s.dropped + 1 }) ∧
      ({ s with dropped := s.dropped + 1 } : LogStream N).Holds queue) ∨
    ∃ after, s.push r.time r.level r.message = (true, after) ∧ after.Holds (queue ++ [r]) := by
  rcases holds.sound.push_cases power r.time r.level r.message with refused | ⟨after, pushed, sound, held, -⟩
  · exact .inl ⟨refused, holds.sound.counting _, (holds.sound.held_counting power _).trans holds.held⟩
  · refine .inr ⟨after, pushed, sound, ?_⟩
    rw [held, holds.held, List.map_append]
    rfl

/-- A call adds at the end of the queue what it accepts, and takes from its front what it takes. -/
theorem Holds.perform (holds : s.Holds queue) (power : N.isPowerOfTwo) (call : LogCall) :
    ∃ front rest, queue ++ s.accepts call = front ++ rest ∧ List.Forall₂ LogEntry.Shows (s.takes call) front ∧
      (s.perform call).Holds rest := by
  cases call with
  | push r =>
    rw [LogStream.perform]
    rcases holds.push_cases power r with ⟨refused, remains⟩ | ⟨after, pushed, longer⟩
    · refine ⟨[], queue, by simp [accepts, refused], .nil, ?_⟩
      rw [refused]
      exact remains
    · refine ⟨[], queue ++ [r], by simp [accepts, pushed], .nil, ?_⟩
      rw [pushed]
      exact longer
  | drain =>
    rw [LogStream.perform]
    rcases holds.drain_cases power with ⟨rfl, drained⟩ | ⟨r, rest, e, after, rfl, drained, shows, remains⟩
    · refine ⟨[], [], rfl, by simp [takes, drained], ?_⟩
      rw [drained]
      exact holds
    · refine ⟨[r], rest, by simp [accepts], by simpa [takes, drained] using shows, ?_⟩
      rw [drained]
      exact remains

/-! ### Runs -/

theorem Holds.performAll (holds : s.Holds queue) (power : N.isPowerOfTwo) (calls : List LogCall) :
    ∃ front rest, queue ++ accepted calls s = front ++ rest ∧ List.Forall₂ LogEntry.Shows (taken calls s) front ∧
      (performAll calls s).Holds rest := by
  induction calls generalizing s queue with
  | nil => exact ⟨[], queue, by simp [accepted], .nil, holds⟩
  | cons call calls ih =>
    obtain ⟨front, rest, split, shows, holds'⟩ := holds.perform power call
    obtain ⟨front', rest', split', shows', holds''⟩ := ih holds'
    refine ⟨front ++ front', rest', ?_, List.rel_append shows shows', holds''⟩
    rw [accepted, ← List.append_assoc, split, List.append_assoc, split', List.append_assoc]

/-- A record is drained once there were drains for all in front of it and one more. -/
theorem Holds.drained_at {r : LogRecord} {more : List LogRecord} (holds : s.Holds (queue ++ r :: more))
    (power : N.isPowerOfTwo) {calls : List LogCall} (drains : queue.length < calls.count .drain) :
    ∃ e, (taken calls s)[queue.length]? = some e ∧ e.Shows r := by
  induction calls generalizing s queue more with
  | nil => exact absurd drains (Nat.not_lt_zero _)
  | cons call calls ih =>
    rw [taken]
    cases call with
    | push last =>
      have drains : queue.length < calls.count .drain := by simpa using drains
      rw [takes, List.nil_append, LogStream.perform]
      rcases holds.push_cases power last with ⟨refused, remains⟩ | ⟨after, pushed, longer⟩
      · rw [refused]
        exact ih remains drains
      · rw [pushed]
        rw [List.append_assoc, List.cons_append] at longer
        exact ih longer drains
    | drain =>
      rw [List.count_cons_self] at drains
      rcases holds.drain_cases power with ⟨empty, -⟩ | ⟨first, rest, e, after, split, drained, shows, remains⟩
      · simp at empty
      · rw [takes, LogStream.perform, drained]
        cases queue with
        | nil =>
          obtain ⟨rfl, rfl⟩ := List.cons.inj split
          exact ⟨e, rfl, shows⟩
        | cons _ queue =>
          obtain ⟨rfl, rfl⟩ := List.cons.inj split
          exact ih remains (Nat.lt_of_succ_lt_succ drains)

/-- After any run of pushes and drains, and however often the indices wrapped around: a push
    is refused just if all slots are taken, and then it counts a drop and does nothing else; a
    drain finds nothing just if nothing is pending; and the entries drained so far show, one
    by one and in order, the records accepted first, all but those that are pending. -/
theorem drained_in_order (power : N.isPowerOfTwo) (small : N ≤ 2147483648) (calls : List LogCall) :
    let s : LogStream N := performAll calls {}
    let accepted := accepted calls ({} : LogStream N)
    let taken := taken calls ({} : LogStream N)
    (∀ time level message, ((s.push time level message).1 = false ↔ s.pending = N) ∧
      ((s.push time level message).1 = false → (s.push time level message).2 = { s with dropped := s.dropped + 1 })) ∧
    (s.drain? = none ↔ s.pending = 0) ∧
    accepted.length = taken.length + s.pending ∧
    List.Forall₂ LogEntry.Shows taken (accepted.take taken.length) := by
  intro s accepted taken
  obtain ⟨front, rest, split, shows, holds⟩ := holds_fresh.performAll power calls
  change s.Holds rest at holds
  have lengths : taken.length = front.length := shows.length_eq
  refine ⟨?_, ?_, ?_, ?_⟩
  · intro time level message
    refine ⟨holds.sound.refused_iff small time level message, ?_⟩
    intro refused
    rcases holds.sound.push_cases power time level message with dropped | ⟨after, pushed, -⟩
    · rw [dropped]
    · rw [pushed] at refused
      cases refused
  · rw [holds.length power]
    rcases holds.drain_cases power with ⟨rfl, drained⟩ | ⟨r, rest, e, after, rfl, drained, -⟩
    · simp [drained]
    · simp [drained]
  · have total := congrArg List.length split
    rw [List.nil_append, List.length_append] at total
    rw [holds.length power, lengths]
    exact total
  · have first : accepted.take taken.length = front := by
      rw [show accepted = front ++ rest from split, lengths, List.take_left]
    rw [first]
    exact shows

/-- A long message and a short one behind it in the same slot, and more messages than slots. -/
def reusing : List LogCall :=
  [.push ⟨⟨1⟩, .warn, [65, 66, 67]⟩, .drain, .push ⟨⟨2⟩, .info, [68]⟩, .drain, .drain, .push ⟨⟨3⟩, .error, [69]⟩]

theorem drained_in_order_reusing :
    let s : LogStream 1 := performAll reusing {}
    (s.push ⟨4⟩ .debug [70]).1 = false ∧ (s.push ⟨4⟩ .debug [70]).2.dropped = 1 ∧ s.drain?.isSome = true ∧
      (taken reusing ({} : LogStream 1)).map LogEntry.bytes = [[65, 66, 67], [68]] := by
  intro s
  obtain ⟨pushes, drains, -, shown⟩ := drained_in_order (N := 1) ⟨0, rfl⟩ (by decide) reusing
  have pending : s.pending = 1 := by decide +kernel
  have refused : (s.push ⟨4⟩ .debug [70]).1 = false := (pushes ⟨4⟩ .debug [70]).1.mpr pending
  refine ⟨refused, ?_, ?_, ?_⟩
  · rw [(pushes ⟨4⟩ .debug [70]).2 refused]
    decide +kernel
  · rw [← Option.ne_none_iff_isSome, ne_eq, drains, pending]
    exact Nat.one_ne_zero
  · have two : (taken reusing ({} : LogStream 1)).length = 2 := by decide +kernel
    have records : (accepted reusing ({} : LogStream 1)).take 2 = [⟨⟨1⟩, .warn, [65, 66, 67]⟩, ⟨⟨2⟩, .info, [68]⟩] := by
      decide +kernel
    rw [two, records] at shown
    obtain ⟨first, rest, long, others, same⟩ := List.forall₂_cons_right_iff.mp shown
    obtain ⟨second, none_left, short, ends, same'⟩ := List.forall₂_cons_right_iff.mp others
    cases ends
    rw [same, same', List.map_cons, List.map_cons, long.bytes, short.bytes]
    rfl

end LogStream
end AirMonitor
