import AirMonitor.Proofs.Log.Accounting
import AirMonitor.Proofs.Log.Records

/-!
All that a pipeline transmits are whole lines. An entry that comes out of a stream is no
longer than a line has room for, and so is every report of drops, so every line that a pump
transmits is there up to its end (`LogDrain.lines_whole`).
-/
namespace AirMonitor
open Utf8 LogDrain

/-- A line of a log with nothing missing. -/
inductive LogLine : Bytes → Prop
  | entry {e : LogEntry} (short : e.bytes.length ≤ LogEntry.room) : LogLine (encode e.text)
  | drops (now : Instant) (index : UInt64) (dropped : UInt32) : LogLine (encode (dropText now index.toNat dropped))

theorem LogLine.ends {line : Bytes} (whole : LogLine line) : [13, 10] <:+ line := by
  have ends (s t : String) (last : [13, 10] <:+ encode t) : [13, 10] <:+ encode (s ++ t) := by
    rw [encode_append]
    exact last.trans (List.suffix_append _ _)
  cases whole with
  | entry short => exact ends _ "\r\n" (by decide)
  | drops now index dropped => exact ends _ " entries\r\n" (by decide)

theorem LogStream.Holds.logLine {N : Nat} {s : LogStream N} {queue : List LogRecord} (holds : s.Holds queue)
    {most : LogLevel} {line : Bytes} (shown : line ∈ linesUpTo most s.held) : LogLine line := by
  rw [holds.held] at shown
  obtain ⟨e, upto, rfl⟩ := List.mem_map.mp shown
  obtain ⟨r, -, rfl⟩ := List.mem_map.mp (List.mem_of_mem_filter upto)
  have short : r.entry.bytes.length ≤ LogEntry.room := (LogEntry.shows_entry r).short
  rw [LogEntry.toLine_whole short]
  exact .entry short

theorem logLine_of_dropLines {N : Nat} {streams : List (LogStream N)} (few : streams.length ≤ 18446744073709551616)
    {drain : LogDrain} {now : Instant} {line : Bytes} (reported : line ∈ drain.dropLines now streams) :
    LogLine line := by
  rw [dropLines_whole few] at reported
  obtain ⟨⟨s, index⟩, there, reported⟩ := List.mem_filterMap.mp reported
  obtain ⟨dropped, -, rfl⟩ := Option.map_eq_some_iff.mp reported
  obtain ⟨word, rfl⟩ := word_of_mem_zipIdx few there
  exact .drops now word dropped

/-! ### What a pipeline transmits -/

namespace LogPipeline
variable {σ : Type} [Board σ] {N : Nat} {p : LogPipeline N σ}

/-- Every stream of a pipeline holds records. -/
def Records (p : LogPipeline N σ) : Prop := ∀ i < p.streams.length, ∃ queue, (p.stream i).Holds queue

omit [Board σ] in
theorem records_fresh (count : Nat) (board : Recorded σ) : (fresh count board : LogPipeline N σ).Records := by
  intro i _
  rw [stream_fresh]
  exact ⟨[], LogStream.holds_fresh⟩

theorem Records.act (records : p.Records) (power : N.isPowerOfTwo) (uart : Uart) (act : LogAct) :
    (p.act uart act).Records := by
  intro i inside
  rw [length_act] at inside
  obtain ⟨queue, holds⟩ := records i inside
  cases act with
  | push j time level message =>
    by_cases same : j = i
    · subst same
      rw [stream_push inside]
      obtain ⟨-, rest, -, -, remains⟩ := holds.perform power (.push ⟨time, level, message⟩)
      exact ⟨rest, remains⟩
    · rw [stream_push_ne same]
      exact ⟨queue, holds⟩
  | pump now most =>
    rw [stream_pump inside]
    obtain ⟨still, emptied⟩ := sound_pumped power holds.sound now p.drain
    exact ⟨[], still, emptied⟩

/-- An act transmits whole lines only. -/
theorem Records.lines (records : p.Records) (power : N.isPowerOfTwo) (few : p.streams.length ≤ 18446744073709551616)
    (uart : Uart) (act : LogAct) :
    ∃ lines, (p.act uart act).board.sent uart = p.board.sent uart ++ lines ∧ ∀ line ∈ lines, LogLine line := by
  cases act with
  | push j time level message => exact ⟨[], (List.append_nil _).symm, nofun⟩
  | pump now most =>
    have holds : ∀ s ∈ p.streams, ∃ queue, s.Holds queue := by
      intro s member
      obtain ⟨i, inside, rfl⟩ := mem_streams member
      exact records i inside
    have sound : ∀ s ∈ p.streams, s.Sound := by
      intro s member
      obtain ⟨queue, holds⟩ := holds s member
      exact holds.sound
    have sent : (p.act uart (.pump now most)).board.sent uart = _ := (p.pump_takes power sound now most).2.1
    refine ⟨_, sent.trans (List.append_assoc _ _ _), ?_⟩
    intro line member
    rcases List.mem_append.mp member with entry | drops
    · obtain ⟨s, there, shown⟩ := List.mem_flatMap.mp entry
      obtain ⟨queue, holds⟩ := holds s there
      exact holds.logLine shown
    · exact logLine_of_dropLines few drops

theorem Records.lines_run (records : p.Records) (power : N.isPowerOfTwo)
    (few : p.streams.length ≤ 18446744073709551616) (uart : Uart) (acts : List LogAct) :
    ∃ lines, (p.run uart acts).board.sent uart = p.board.sent uart ++ lines ∧ ∀ line ∈ lines, LogLine line := by
  induction acts generalizing p with
  | nil => exact ⟨[], (List.append_nil _).symm, nofun⟩
  | cons act acts ih =>
    obtain ⟨first, sent, whole⟩ := records.lines power few uart act
    obtain ⟨rest, sent', whole'⟩ := ih (records.act power uart act) ((length_act act).trans_le few)
    refine ⟨first ++ rest, ?_, ?_⟩
    · rw [← List.append_assoc, ← sent]
      exact sent'
    · intro line member
      rcases List.mem_append.mp member with here | later
      · exact whole line here
      · exact whole' line later

end LogPipeline

namespace LogDrain
variable {σ : Type} [Board σ] {N : Nat}

/-- No log line is cut. Each entry that comes out of a stream has its line in full, and so
    has each report of drops. All that a pipeline ever transmits are such lines, and they end
    with a carriage return and a line feed. -/
theorem lines_whole (power : N.isPowerOfTwo) :
    (∀ (calls : List LogCall), ∀ e ∈ LogStream.taken calls ({} : LogStream N), e.toLine lineRoom = encode e.text) ∧
    (∀ (now : Instant) (index : UInt64) (dropped : UInt32),
      dropLine now index.toNat dropped = encode (dropText now index.toNat dropped)) ∧
    ∀ (uart : Uart) (count : Nat), count ≤ 18446744073709551616 → ∀ (board : Recorded σ) (acts : List LogAct),
      ∃ lines, ((LogPipeline.fresh count board : LogPipeline N σ).run uart acts).board.sent uart =
          board.sent uart ++ lines ∧
        ∀ line ∈ lines, LogLine line ∧ [13, 10] <:+ line := by
  refine ⟨?_, dropLine_whole, ?_⟩
  · intro calls e member
    obtain ⟨front, -, -, shows, -⟩ := LogStream.holds_fresh.performAll power calls
    have all_short := List.forall₂_and_left (p := fun e : LogEntry => e.bytes.length ≤ LogEntry.room) _ _ |>.mp
      (shows.imp fun _ _ shown => ⟨shown.short, shown⟩)
    exact LogEntry.toLine_whole (all_short.1 e member)
  · intro uart count few board acts
    have length : (LogPipeline.fresh count board : LogPipeline N σ).streams.length ≤ 18446744073709551616 := by
      rw [LogPipeline.fresh, List.length_replicate]
      exact few
    obtain ⟨lines, sent, whole⟩ := (LogPipeline.records_fresh count board).lines_run power length uart acts
    exact ⟨lines, sent, fun line member => ⟨whole line member, (whole line member).ends⟩⟩

/-- The entry that takes the longest line. -/
def fullest : LogRecord := ⟨⟨Int64.minValue⟩, .error, List.replicate 120 97⟩

/-- Two messages for a stream that has room for one, and a pump that reports the drop. -/
def droppingOne : List LogAct := [.push 0 ⟨1⟩ .warn [65], .push 0 ⟨2⟩ .warn [66], .pump ⟨10000000⟩ .trace]

theorem lines_whole_fullest :
    let start : LogPipeline 1 Bench := .fresh 1 { board := {} }
    let sent := (start.run .console droppingOne).board.sent .console
    (fullest.entry.toLine lineRoom).length = 152 ∧ [13, 10] <:+ fullest.entry.toLine lineRoom ∧
      sent.length = 2 ∧ ∀ line ∈ sent, [13, 10] <:+ line := by
  intro start sent
  obtain ⟨whole, -, transmitted⟩ := lines_whole (σ := Bench) (N := 1) ⟨0, rfl⟩
  have drained : LogStream.taken [.push fullest, .drain] ({} : LogStream 1) = [fullest.entry] := by decide +kernel
  have full : fullest.entry.toLine lineRoom = encode fullest.entry.text :=
    whole [.push fullest, .drain] fullest.entry (by rw [drained]; exact List.mem_singleton_self _)
  have bytes : fullest.entry.bytes = encode (String.ofList (List.replicate 120 'a')) := by
    rw [encode_ofList]
    decide +kernel
  have message : fullest.entry.message = String.ofList (List.replicate 120 'a') := by
    rw [LogEntry.message, bytes, text?_encode]
    rfl
  rw [full]
  refine ⟨?_, ?_, by decide +kernel, ?_⟩
  · simp only [LogEntry.text, message, encode_append, encode_ofList, List.length_append]
    decide +kernel
  · exact (LogLine.entry (LogEntry.shows_entry fullest).short).ends
  · obtain ⟨lines, same, ends⟩ := transmitted .console 1 (by decide) { board := {} } droppingOne
    have all : sent = lines := same
    rw [all]
    exact fun line member => (ends line member).2

end LogDrain
end AirMonitor
