import AirMonitor.Proofs.Log.Pumping
import AirMonitor.Proofs.Text.Numerals
import Mathlib.Data.List.Basic

/-!
The texts of log lines. The room of a line is what the longest message, the longest time
and the longest level take with all that stands between them, to the byte
(`LogEntry.length_text`), so no line is cut: an entry has its line in full
(`LogEntry.toLine_whole`), and so have the drops that a pump reports
(`LogDrain.dropLines_whole`).
-/
namespace AirMonitor
open Utf8 LogDrain

/-- The line of an entry in full: the time in ten characters or more, the level and the message. -/
def LogEntry.text (e : LogEntry) : String :=
  "[" ++ Numeral.alignRight 10 ' ' (Numeral.signed e.time.toInt) ++ "] " ++ e.level.name ++ ": " ++ e.message ++ "\r\n"

/-- The line that reports the drops of a stream in full. -/
def LogDrain.dropText (now : Instant) (index : Nat) (dropped : UInt32) : String :=
  "[" ++ Numeral.alignRight 10 ' ' (Numeral.signed now.toInt) ++ "] WARN: log stream " ++ Numeral.decimal index ++
    " dropped " ++ Numeral.decimal dropped.toNat ++ " entries\r\n"

theorem line_of_fits {room : Nat} {pieces : List String} (fits : (encode (String.join pieces)).length ≤ room) :
    line room pieces = encode (String.join pieces) := by
  rw [line_join, List.take_of_length_le fits]

namespace LogEntry
variable {e : LogEntry}

theorem length_name (l : LogLevel) : (encode l.name).length ≤ 5 := by cases l <;> decide

/-- What a message reads as takes no more bytes than the message, or is what stands for one
    that cannot be read. -/
theorem length_message (short : e.bytes.length ≤ room) : (encode e.message).length ≤ room := by
  rw [message, text?]
  split
  · next whole =>
    rw [Option.getD_some, whole]
    exact short
  · rw [Option.getD_none]
    decide

theorem length_text (short : e.bytes.length ≤ room) : (encode e.text).length ≤ lineRoom := by
  have time := Numeral.length_moment e.time
  have level := length_name e.level
  have message := length_message short
  have marks : (encode "[").length + (encode "] ").length + (encode ": ").length + (encode "\r\n").length = 7 := by
    decide
  simp only [text, encode_append, List.length_append, lineRoom]
  omega

theorem toLine_whole (short : e.bytes.length ≤ room) : e.toLine lineRoom = encode e.text := by
  have pieces : String.join ["[", Numeral.alignRight 10 ' ' (Numeral.signed e.time.toInt), "] ", e.level.name, ": ",
      e.message, "\r\n"] = e.text := by
    simp only [text, String.join_cons, String.join_nil, String.append_empty, String.append_assoc]
  rw [toLine, line_of_fits, pieces]
  rw [pieces]
  exact length_text short

end LogEntry

namespace LogDrain

theorem length_dropText (now : Instant) (index : UInt64) (dropped : UInt32) :
    (encode (dropText now index.toNat dropped)).length ≤ lineRoom := by
  have time := Numeral.length_moment now
  have stream := Numeral.length_decimal (k := 20) (by decide) (Nat.lt_trans index.toNat_lt (by decide))
  have count := Numeral.length_decimal (k := 10) (by decide) (Nat.lt_trans dropped.toNat_lt (by decide))
  have marks : (encode "[").length + (encode "] WARN: log stream ").length + (encode " dropped ").length +
      (encode " entries\r\n").length = 39 := by decide
  have room : lineRoom = 152 := rfl
  simp only [dropText, encode_append, List.length_append]
  omega

theorem dropLine_whole (now : Instant) (index : UInt64) (dropped : UInt32) :
    dropLine now index.toNat dropped = encode (dropText now index.toNat dropped) := by
  have pieces : String.join ["[", Numeral.alignRight 10 ' ' (Numeral.signed now.toInt), "] WARN: log stream ",
      Numeral.decimal index.toNat, " dropped ", Numeral.decimal dropped.toNat, " entries\r\n"] =
        dropText now index.toNat dropped := by
    simp only [dropText, String.join_cons, String.join_nil, String.append_empty, String.append_assoc]
  rw [dropLine, line_of_fits, pieces]
  rw [pieces]
  exact length_dropText now index dropped

/-- As many streams as a word of 64 bits can count are numbered by such words. -/
theorem word_of_mem_zipIdx {N : Nat} {streams : List (LogStream N)} (few : streams.length ≤ 18446744073709551616)
    {stream : LogStream N} {index : Nat} (there : (stream, index) ∈ streams.zipIdx) : ∃ word : UInt64, word.toNat = index := by
  have inside : index < 18446744073709551616 := by
    have := List.snd_lt_of_mem_zipIdx there
    omega
  exact ⟨.ofNat index, UInt64.toNat_ofNat_of_lt inside⟩

/-- The lines that report drops name each stream and its count. -/
theorem dropLines_whole {N : Nat} {streams : List (LogStream N)} (few : streams.length ≤ 18446744073709551616)
    (drain : LogDrain) (now : Instant) :
    drain.dropLines now streams = streams.zipIdx.filterMap fun (stream, index) =>
      (drain.report? now stream).map fun dropped => encode (dropText now index dropped) := by
  refine List.filterMap_congr fun (stream, index) there => ?_
  obtain ⟨word, rfl⟩ := word_of_mem_zipIdx few there
  exact congrArg (Option.map · _) (funext fun dropped => dropLine_whole now word dropped)

end LogDrain

end AirMonitor
