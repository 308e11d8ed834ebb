import AirMonitor.Proofs.Log.Records
import AirMonitor.Proofs.Text.Fronts

/-!
What a text reads as that was logged. The pieces are put together and cut at the last byte
of the room, so the message of the entry is the longest front of the text that there is room
for, as long as no character stands across the end of the room. A character that does is cut
in two, and then nothing of the text can be read (`message_of_logged`).
-/
namespace AirMonitor
open Utf8

namespace LogEntry

/-- A text that was cut at the end of the room reads as its longest front, or not at all. -/
theorem message_of_cut {e : LogEntry} {text : String} (cut : e.bytes = (encode text).take room) :
    (¬ Straddles room text → LongestFront room text e.message) ∧
      (Straddles room text → e.message = "<invalid utf8>") := by
  rw [message, cut, text?]
  constructor
  · intro whole
    rw [if_pos ((encode_longest_take_iff room text).mpr whole)]
    exact longestFront_longest room text
  · intro across
    rw [if_neg (fun whole => (encode_longest_take_iff room text).mp whole across)]
    rfl

end LogEntry

namespace LogStream
variable {N : Nat}

/-- A text that is logged while there is a free slot is accepted and cut, and its entry is
    drained behind those that are pending. -/
theorem Holds.log_drained {s : LogStream N} {queue : List LogRecord} (holds : s.Holds queue)
    (power : N.isPowerOfTwo) (small : N ≤ 2147483648) (free : s.pending < N) (time : Instant) (level : LogLevel)
    (pieces : List String) (later : List LogCall) :
    (s.log time level pieces).1 = true ∧
      (s.pending < later.count .drain →
        ∃ e, (taken later (s.log time level pieces).2)[s.pending]? = some e ∧ e.time = time ∧ e.level = level ∧
          e.bytes = (encode (String.join pieces)).take LogEntry.room) := by
  let record : LogRecord := ⟨time, level, line LogEntry.room pieces⟩
  rw [log]
  rcases holds.push_cases power record with ⟨refused, -⟩ | ⟨after, pushed, longer⟩
  · have full : s.pending = N := (holds.sound.refused_iff small _ _ _).mp (congrArg Prod.fst refused)
    exact absurd full (Nat.ne_of_lt free)
  · rw [pushed, holds.length power]
    refine ⟨rfl, ?_⟩
    intro drains
    obtain ⟨e, found, shows⟩ := longer.drained_at power drains
    have kept : record.message = (encode (String.join pieces)).take LogEntry.room := line_join LogEntry.room pieces
    refine ⟨e, found, shows.time, shows.level, ?_⟩
    rw [shows.bytes, kept, List.take_take, Nat.min_self]

/-- After any run, the entry of a text that is logged while there is a free slot reads as the
    longest front of the text that it has room for, unless a character stands across the end
    of the room. -/
theorem message_of_logged (power : N.isPowerOfTwo) (small : N ≤ 2147483648) (before later : List LogCall)
    (time : Instant) (level : LogLevel) (pieces : List String) :
    let s : LogStream N := performAll before {}
    let text := String.join pieces
    s.pending < N →
      (s.log time level pieces).1 = true ∧
      (s.pending < later.count .drain →
        ∃ e, (taken later (s.log time level pieces).2)[s.pending]? = some e ∧ e.time = time ∧ e.level = level ∧
          (¬ Straddles LogEntry.room text → LongestFront LogEntry.room text e.message) ∧
          (Straddles LogEntry.room text → e.message = "<invalid utf8>")) := by
  intro s text free
  obtain ⟨_, queue, -, -, holds⟩ := holds_fresh.performAll power before
  obtain ⟨accepted, drained⟩ := Holds.log_drained holds power small free time level pieces later
  refine ⟨accepted, ?_⟩
  intro drains
  obtain ⟨e, found, same_time, same_level, cut⟩ := drained drains
  exact ⟨e, found, same_time, same_level, LogEntry.message_of_cut cut⟩

/-- 118 bytes and two characters of two bytes each; the first of them ends with the room. -/
def upToTheEnd : List String := [String.ofList (List.replicate 118 'a'), "é", "é"]

theorem message_of_logged_whole :
    let s : LogStream 2 := performAll [.push ⟨⟨1⟩, .warn, [65]⟩] {}
    let taken := taken [.drain, .push ⟨⟨3⟩, .warn, [66]⟩, .drain] (s.log ⟨2⟩ .info upToTheEnd).2
    s.pending < 2 ∧ (s.log ⟨2⟩ .info upToTheEnd).1 = true ∧
      ∃ e, taken[1]? = some e ∧ LongestFront LogEntry.room (String.join upToTheEnd) e.message := by
  intro s taken
  have ahead : s.pending = 1 := by decide +kernel
  have free : s.pending < 2 := by
    rw [ahead]
    exact Nat.one_lt_two
  obtain ⟨accepted, drained⟩ := message_of_logged (N := 2) ⟨1, rfl⟩ (by decide) [.push ⟨⟨1⟩, .warn, [65]⟩]
    [.drain, .push ⟨⟨3⟩, .warn, [66]⟩, .drain] ⟨2⟩ .info upToTheEnd free
  obtain ⟨e, found, -, -, whole, -⟩ := drained (by rw [ahead]; decide)
  refine ⟨free, accepted, e, ?_, whole ?_⟩
  · rw [← ahead]
    exact found
  · have joined (front : String) : String.join [front, "é", "é"] = front.push 'é' ++ "é" :=
      String.toList_injective (by simp)
    rw [upToTheEnd, joined]
    refine not_straddles_append ?_ "é"
    rw [encode_push, encode_ofList]
    decide +kernel

/-- A text of 121 bytes whose last character takes two. -/
def acrossTheEnd : List String := [String.ofList (List.replicate 119 'a'), "é"]

/-- Nothing is left of a text that a character carries across the end of the room, although
    119 bytes of it could be read. -/
theorem message_of_logged_lost :
    let front := String.ofList (List.replicate 119 'a')
    ∃ e, (taken [.drain] (({} : LogStream 4).log ⟨7⟩ .info acrossTheEnd).2)[0]? = some e ∧
      e.message = "<invalid utf8>" ∧ LongestFront LogEntry.room (String.join acrossTheEnd) front ∧
      ¬ LongestFront LogEntry.room (String.join acrossTheEnd) e.message := by
  intro front
  have bytes : (encode front).length = 119 := by
    rw [encode_ofList]
    decide +kernel
  have starts : (encode front).length < LogEntry.room := by
    rw [bytes]
    decide
  have ends : LogEntry.room < (encode front).length + 'é'.utf8Size := by
    rw [bytes]
    decide
  have joined (front : String) : String.join [front, "é"] = front.push 'é' ++ "" := String.toList_injective (by simp)
  have text : String.join acrossTheEnd = front.push 'é' ++ "" := joined front
  have across : Straddles LogEntry.room (String.join acrossTheEnd) := ⟨front, 'é', "", text, starts, ends⟩
  have longest : LongestFront LogEntry.room (String.join acrossTheEnd) front := by
    rw [text]
    exact longestFront_push (Nat.le_of_lt starts) ends
  obtain ⟨-, drained⟩ := holds_fresh.log_drained (N := 4) ⟨2, rfl⟩ (by decide) (by decide) ⟨7⟩ .info acrossTheEnd [.drain]
  obtain ⟨e, found, -, -, cut⟩ := drained (by decide)
  have lost : e.message = "<invalid utf8>" := (LogEntry.message_of_cut cut).2 across
  refine ⟨e, found, lost, longest, ?_⟩
  rw [lost]
  intro other
  exact absurd (longest.unique other) (by decide)

end LogStream
end AirMonitor
