import AirMonitor.At.Channel
import AirMonitor.Proofs.Board.Receiving
import Mathlib.Data.List.Infix

/-!
What an exchange makes of the bytes that come in time. The response is their shortest
prefix that ends with a last line or fills the room for it (`IsFrame`), and nothing
behind it is taken from the queue (`exchange_framed`). While the response is read, the
bytes read so far and those still to come in time stay the same bytes, and no shorter
part of what was read is a response.
-/
namespace AirMonitor
namespace At

/-! ### Responses among bytes -/

/-- The bytes end with a line of one word. -/
def EndsWith (word : String) (bytes : Bytes) : Prop := Utf8.encode word ++ lineBreak <:+ bytes

instance (word : String) (bytes : Bytes) : Decidable (EndsWith word bytes) := inferInstanceAs (Decidable (_ <:+ _))

/-- Nothing more is read. -/
def Final (bytes : Bytes) : Prop :=
  EndsWith "OK" bytes ∨ EndsWith "ERROR" bytes ∨ EndsWith "FAIL" bytes ∨ bytes.length = Response.room

instance (bytes : Bytes) : Decidable (Final bytes) := inferInstanceAs (Decidable (_ ∨ _))

/-- What a response means to the one who waits for it. -/
def reading (bytes : Bytes) : Except CommError Response :=
  if EndsWith "OK" bytes then .ok ⟨bytes⟩
  else if EndsWith "ERROR" bytes ∨ EndsWith "FAIL" bytes then .error (.deviceReported ⟨bytes⟩)
  else .error (.bufferExhausted ⟨bytes⟩)

/-- The shortest prefix that is final. -/
structure IsFrame (bytes frame : Bytes) : Prop where
  front : frame <+: bytes
  final : Final frame
  shortest : ∀ shorter, shorter <+: bytes → Final shorter → frame.length ≤ shorter.length

instance (bytes frame : Bytes) : Decidable (IsFrame bytes frame) :=
  decidable_of_iff
    (frame <+: bytes ∧ Final frame ∧ ∀ shorter ∈ bytes.inits, Final shorter → frame.length ≤ shorter.length)
    ⟨fun ⟨front, final, shortest⟩ => ⟨front, final, fun q before => shortest q ((List.mem_inits _ _).mpr before)⟩,
      fun ⟨front, final, shortest⟩ => ⟨front, final, fun q member => shortest q ((List.mem_inits _ _).mp member)⟩⟩

section
variable {bytes frame got : Bytes}

theorem verdict?_eq (bytes : Bytes) :
    verdict? bytes =
      if EndsWith "OK" bytes then some .success
      else if EndsWith "ERROR" bytes ∨ EndsWith "FAIL" bytes then some .failure
      else none := by
  have shown : ∀ ending : Bytes, ending.isSuffixOf bytes = decide (ending <:+ bytes) := by
    intro ending
    rw [Bool.eq_iff_iff, List.isSuffixOf_iff_suffix, decide_eq_true_iff]
  unfold EndsWith
  simp only [verdict?, endings, List.find?_cons, List.find?_nil, shown]
  by_cases ok : Utf8.encode "OK" ++ lineBreak <:+ bytes
  · simp [ok]
  · by_cases error : Utf8.encode "ERROR" ++ lineBreak <:+ bytes
    · simp [ok, error]
    · by_cases fail : Utf8.encode "FAIL" ++ lineBreak <:+ bytes <;> simp [ok, error, fail]

theorem final_iff : Final bytes ↔ verdict? bytes ≠ none ∨ bytes.length = Response.room := by
  rw [verdict?_eq]
  by_cases ok : EndsWith "OK" bytes <;> by_cases error : EndsWith "ERROR" bytes <;>
    by_cases fail : EndsWith "FAIL" bytes <;> simp [Final, ok, error, fail]

theorem reading_eq (bytes : Bytes) :
    reading bytes =
      match verdict? bytes with
      | some .success => .ok ⟨bytes⟩
      | some .failure => .error (.deviceReported ⟨bytes⟩)
      | none => .error (.bufferExhausted ⟨bytes⟩) := by
  rw [verdict?_eq, reading]
  by_cases ok : EndsWith "OK" bytes
  · rw [if_pos ok, if_pos ok]
  · rw [if_neg ok, if_neg ok]
    by_cases failed : EndsWith "ERROR" bytes ∨ EndsWith "FAIL" bytes
    · rw [if_pos failed, if_pos failed]
    · rw [if_neg failed, if_neg failed]

/-- What has been read is the response if it is final and no shorter part of it is. -/
theorem isFrame_iff (final : Final got) (early : ∀ shorter, shorter <+: got → Final shorter → shorter = got) :
    IsFrame (got ++ bytes) frame ↔ frame = got := by
  have front : got <+: got ++ bytes := List.prefix_append got bytes
  constructor
  · intro frames
    exact early frame (List.prefix_of_prefix_length_le frames.front front (frames.shortest got front final)) frames.final
  · rintro rfl
    refine ⟨front, final, fun shorter before ends => ?_⟩
    rcases Nat.le_total frame.length shorter.length with longer | less
    · exact longer
    · exact Nat.le_of_eq (by rw [early shorter (List.prefix_of_prefix_length_le before front less) ends])

/-- A response of which only a part was read goes on behind that part. -/
theorem IsFrame.longer (frames : IsFrame (got ++ bytes) frame) (open_end : ¬ Final got)
    (early : ∀ shorter, shorter <+: got → Final shorter → shorter = got) : got.length < frame.length := by
  rcases Nat.lt_or_ge got.length frame.length with longer | short
  · exact longer
  · have inside : frame <+: got := List.prefix_of_prefix_length_le frames.front (List.prefix_append got bytes) short
    rw [early frame inside frames.final] at frames
    exact absurd frames.final open_end

end

end At

/-! ### What comes in time -/

namespace Bench

/-- The answer to the next transmission to the co-processor. -/
def reply (b : Bench) : Reply := b.modem.script.headD {}

/-- When the next transmission is over. -/
def sentAt (b : Bench) : Instant := b.now.later b.reply.duration

/-- The queue after the next transmission. -/
def answered (b : Bench) : List (Instant × UInt8) :=
  b.modem.waiting ++ arrivals (b.sentAt.later b.reply.delay) b.reply.gap b.reply.rx

/-- The bench without the next answer in its script. -/
def spent (b : Bench) : Bench :=
  { b with modem := { b.modem with script := b.modem.script.tail, fault := b.modem.fault || b.reply.fault } }

theorem transmit_eq (data : Bytes) (b : Bench) :
    Board.transmit .modem data b =
      (!b.reply.fails, b.spent.left (if b.reply.fails then b.modem.waiting else b.answered) b.sentAt) := by
  show Bench.transmit .modem b = _
  cases fails : b.reply.fails <;> rw [reply] at fails <;>
    simp [-List.headD_eq_head?_getD, transmit, link, setLink, feed, advance, fails, spent, left, answered, sentAt, reply]

end Bench

/-- The bytes that arrive before any that comes after a limit. -/
def inTime (limit : Instant) (queue : List (Instant × UInt8)) : Bytes :=
  (queue.takeWhile fun (arrival, _) => decide (arrival ≤ limit)).map Prod.snd

namespace At.Channel

/-! ### Reading -/

section
variable {deadline : Instant} {room : Nat} {got : Bytes} {r : Recorded Bench} {now : Instant}
  {queue : List (Instant × UInt8)}

theorem readMore_waits (late : ∀ first ∈ queue.head?, ¬ first.1 ≤ now.latest deadline) (newestFirst : Bytes) :
    readMore deadline (room + 1) newestFirst { r with board := r.board.left queue now } =
      (.error .timeout, { r with board := r.board.left queue (now.latest deadline) }) := by
  rw [readMore, Recorded.receive_eq, Bench.receive_none late]
  rfl

theorem readMore_receives {arrival : Instant} {byte : UInt8} (soon : arrival ≤ now.latest deadline) :
    readMore deadline (room + 1) got.reverse { r with board := r.board.left ((arrival, byte) :: queue) now } =
      if verdict? (got ++ [byte]) = none then
        readMore deadline room (got ++ [byte]).reverse { r with board := r.board.left queue (now.latest arrival) }
      else (reading (got ++ [byte]), { r with board := r.board.left queue (now.latest arrival) }) := by
  have received := Bench.receive_some (b := r.board.left ((arrival, byte) :: queue) now) rfl soon
  rw [readMore, Recorded.receive_eq, received]
  simp only [verdictOfReverse?_eq, List.reverse_cons, List.reverse_reverse, List.reverse_append, List.reverse_nil,
    List.nil_append, List.singleton_append, Bench.left_left, Bench.now_left]
  rw [reading_eq]
  cases verdict? (got ++ [byte]) with
  | none => rfl
  | some v => cases v <;> rfl

variable (deadline r now queue) in
/-- Of what comes in time, the response is read up to its end, or all if there is no response. -/
theorem readMore_spec (full : got.length + room = Response.room) (undecided : verdict? got = none)
    (early : ∀ shorter, shorter <+: got → Final shorter → shorter = got) :
    let arriving := inTime (now.latest deadline) queue
    let out := readMore deadline room got.reverse { r with board := r.board.left queue now }
    (∀ frame, IsFrame (got ++ arriving) frame →
      out.1 = reading frame ∧
      ∃ time, out.2 = { r with board := r.board.left (queue.drop (frame.length - got.length)) time }) ∧
    ((¬ ∃ frame, IsFrame (got ++ arriving) frame) →
      out = (.error .timeout, { r with board := r.board.left (queue.drop arriving.length) (now.latest deadline) })) := by
  induction room generalizing got now queue with
  | zero =>
    intro arriving out
    -- The room is full, so what was read is the response, whatever its last bytes are.
    have final : Final got := .inr (.inr (.inr full))
    refine ⟨fun frame frames => ?_, fun none => absurd ⟨got, (isFrame_iff final early).mpr rfl⟩ none⟩
    obtain rfl := (isFrame_iff final early).mp frames
    refine ⟨?_, now, ?_⟩
    · rw [reading_eq, undecided]
      simp [out, readMore]
    · simp [out, readMore]
  | succ room ih =>
    intro arriving out
    have unfinished : ¬ Final got := by
      rw [final_iff]
      rintro (decided | whole)
      · exact decided undecided
      · omega
    by_cases comes : ∃ arrival byte rest, queue = (arrival, byte) :: rest ∧ arrival ≤ now.latest deadline
    · obtain ⟨arrival, byte, rest, rfl, soon⟩ := comes
      have limit : (now.latest arrival).latest deadline = now.latest deadline := Instant.latest_latest soon
      have more : arriving = byte :: inTime (now.latest deadline) rest := by simp [arriving, inTime, soon]
      -- The byte moves from what is to come to what was read, and the limit stays.
      have next : got ++ arriving = (got ++ [byte]) ++ inTime (now.latest deadline) rest := by
        rw [more, List.append_assoc, List.singleton_append]
      have early' : ∀ shorter, shorter <+: got ++ [byte] → Final shorter → shorter = got ++ [byte] := by
        intro shorter before ends
        rcases List.prefix_concat_iff.mp before with whole | inside
        · exact whole
        · rw [early shorter inside ends] at ends
          exact absurd ends unfinished
      have size : (got ++ [byte]).length = got.length + 1 := List.length_append
      have received : out = _ := readMore_receives soon
      rw [next, received]
      by_cases undecided' : verdict? (got ++ [byte]) = none
      · rw [if_pos undecided']
        have later := @ih (got ++ [byte]) (now.latest arrival) rest (by omega) undecided' early'
        rw [limit] at later
        refine ⟨fun frame frames => ?_, fun none => ?_⟩
        · obtain ⟨result, time, rest_left⟩ := later.1 frame frames
          refine ⟨result, time, ?_⟩
          have longer : got.length < frame.length := IsFrame.longer (next ▸ frames) unfinished early
          rw [rest_left, size, show frame.length - got.length = (frame.length - (got.length + 1)) + 1 by omega,
            List.drop_succ_cons]
        · rw [later.2 none, more, List.length_cons, List.drop_succ_cons]
      · rw [if_neg undecided']
        have final : Final (got ++ [byte]) := final_iff.mpr (.inl undecided')
        refine ⟨fun frame frames => ?_, fun none => absurd ⟨_, (isFrame_iff final early').mpr rfl⟩ none⟩
        obtain rfl := (isFrame_iff final early').mp frames
        refine ⟨rfl, now.latest arrival, ?_⟩
        rw [size, Nat.add_sub_cancel_left, List.drop_succ_cons, List.drop_zero]
    · have late : ∀ first ∈ queue.head?, ¬ first.1 ≤ now.latest deadline := by
        intro first member soon
        obtain ⟨rest, rfl⟩ := List.head?_eq_some_iff.mp member
        exact comes ⟨first.1, first.2, rest, rfl, soon⟩
      have nothing : arriving = [] := by
        cases queue with
        | nil => rfl
        | cons first rest => simp [arriving, inTime, late first rfl]
      have timeout : out = _ := readMore_waits late got.reverse
      rw [nothing, timeout]
      refine ⟨fun frame frames => absurd (IsFrame.longer frames unfinished early) ?_, fun _ => by simp⟩
      have inside := frames.front.length_le
      rw [List.append_nil] at inside
      omega

end

/-! ### Exchanges -/

theorem board_discardStale {σ : Type} [Board σ] (c : Channel σ) : c.discardStale.board = (Board.discard .modem c.board).2 := by
  unfold discardStale
  by_cases none : (Board.discard .modem c.board).1 = 0 <;> simp [none, note]

variable {c : Channel (Recorded Bench)}

/-- The bench of a channel when stale bytes have been discarded. -/
def ready (c : Channel (Recorded Bench)) : Bench := (Board.discard .modem c.board.board).2

/-- What comes in time for an exchange. -/
def heard (timeout : Duration) (c : Channel (Recorded Bench)) : Bytes :=
  inTime (c.ready.sentAt.latest (c.ready.now + timeout)) c.ready.answered

/-- The data is transmitted once, and the response is the frame of what comes in time,
    behind which everything stays in the queue. -/
structure Framed (data : Bytes) (timeout : Duration) (c : Channel (Recorded Bench))
    (outcome : Except CommError Response × Channel (Recorded Bench)) : Prop where
  sent_once : outcome.2.board.deeds = (c.ready.now, .transmit .modem data) :: c.board.deeds
  unsent : c.ready.reply.fails = true → outcome.1 = .error .timeout
  answered : c.ready.reply.fails = false → ∀ frame, IsFrame (c.heard timeout) frame →
    outcome.1 = reading frame ∧ outcome.2.board.board.modem.waiting = c.ready.answered.drop frame.length
  unanswered : c.ready.reply.fails = false → (¬ ∃ frame, IsFrame (c.heard timeout) frame) →
    outcome.1 = .error .timeout ∧
    outcome.2.board.board.modem.waiting = c.ready.answered.drop (c.heard timeout).length ∧
    c.ready.now + timeout ≤ outcome.2.now

theorem exchangeBytes_framed (data : Bytes) (timeout : Duration) (c : Channel (Recorded Bench)) :
    Framed data timeout c (c.exchangeBytes data timeout) := by
  have board : c.discardStale.board = ⟨c.ready, c.board.deeds⟩ := by
    rw [board_discardStale, Recorded.discard_eq]
    rfl
  have sent : Board.transmit .modem data c.discardStale.board =
      (!c.ready.reply.fails,
        ⟨c.ready.spent.left (if c.ready.reply.fails then c.ready.modem.waiting else c.ready.answered) c.ready.sentAt,
          (c.ready.now, .transmit .modem data) :: c.board.deeds⟩) := by
    rw [board]
    show ((Board.transmit .modem data c.ready).1,
      (⟨(Board.transmit .modem data c.ready).2, _⟩ : Recorded Bench)) = _
    rw [Bench.transmit_eq]
    rfl
  have time : c.discardStale.now = c.ready.now := by
    rw [now, board]
    rfl
  have sizes : ([] : Bytes).length + Response.room = Response.room := Nat.zero_add _
  have early : ∀ shorter, shorter <+: ([] : Bytes) → Final shorter → shorter = [] :=
    fun shorter before _ => List.prefix_nil.mp before
  cases fails : c.ready.reply.fails with
  | true =>
    have whole : c.exchangeBytes data timeout = (.error .timeout, { c.discardStale with
        board := ⟨c.ready.spent.left c.ready.modem.waiting c.ready.sentAt,
          (c.ready.now, .transmit .modem data) :: c.board.deeds⟩ }) := by
      simp [exchangeBytes, sent, fails]
    rw [whole]
    exact ⟨rfl, fun _ => rfl, fun works => by simp [fails] at works, fun works => by simp [fails] at works⟩
  | false =>
    let r : Recorded Bench := ⟨c.ready.spent, (c.ready.now, .transmit .modem data) :: c.board.deeds⟩
    obtain ⟨out, read⟩ : ∃ out, readMore (c.ready.now + timeout) Response.room []
        { r with board := r.board.left c.ready.answered c.ready.sentAt } = out := ⟨_, rfl⟩
    have whole : c.exchangeBytes data timeout = (out.1, { c.discardStale with board := out.2 }) := by
      simp [exchangeBytes, sent, fails, time, ← read, r]
    have spec := readMore_spec (c.ready.now + timeout) r c.ready.sentAt c.ready.answered sizes (by decide) early
    simp only [List.reverse_nil, List.nil_append, read, List.length_nil, Nat.sub_zero] at spec
    obtain ⟨framed, silent⟩ := spec
    have answered : ∀ frame, IsFrame (c.heard timeout) frame →
        out.1 = reading frame ∧ out.2.board.modem.waiting = c.ready.answered.drop frame.length := by
      intro frame frames
      obtain ⟨result, t, after⟩ := framed frame frames
      exact ⟨result, by rw [after, Bench.waiting_left]⟩
    have unanswered : (¬ ∃ frame, IsFrame (c.heard timeout) frame) →
        out.1 = .error .timeout ∧ out.2.board.modem.waiting = c.ready.answered.drop (c.heard timeout).length ∧
        c.ready.now + timeout ≤ Board.now out.2 := by
      intro none
      rw [silent none]
      exact ⟨rfl, rfl, Instant.le_latest _ _⟩
    have deeds : out.2.deeds = r.deeds := by
      by_cases some : ∃ frame, IsFrame (c.heard timeout) frame
      · obtain ⟨frame, frames⟩ := some
        obtain ⟨-, t, after⟩ := framed frame frames
        rw [after]
      · rw [silent some]
    rw [whole]
    exact ⟨deeds, fun refused => by simp [fails] at refused, fun _ => answered, fun _ => unanswered⟩

/-- A command goes out once with its line break and a payload as it is, and both are
    framed alike. A command that is too long does nothing. -/
theorem exchange_framed (timeout : Duration) (c : Channel (Recorded Bench)) :
    (∀ command, (Utf8.encode command).length ≤ commandRoom →
      Framed (Utf8.encode command ++ lineBreak) timeout c (c.exchange command timeout)) ∧
    (∀ payload, Framed payload timeout c (c.exchangeBytes payload timeout)) ∧
    ∀ command, commandRoom < (Utf8.encode command).length →
      c.exchange command timeout = (.error .commandTooLong, c) := by
  refine ⟨?_, fun payload => exchangeBytes_framed payload timeout c, ?_⟩
  · intro command fits
    rw [exchange, if_neg (Nat.not_lt.mpr fits)]
    exact exchangeBytes_framed _ timeout c
  · intro command long
    rw [exchange, if_pos long]

/-- A stale byte is dropped, a false start does not end the response, and what comes
    behind it stays. -/
theorem exchange_framed_falseStart :
    let bench : Bench :=
      { modem := { script := [{ rx := Utf8.encode "OK \r\nOK\r\n+I", delay := 7, gap := 3 }], waiting := [(.boot, 79)] } }
    let c : Channel (Recorded Bench) := { board := { board := bench } }
    (Utf8.encode "AT").length ≤ commandRoom ∧
      (c.exchange "AT" (.ofMillis 1)).1 = .ok ⟨Utf8.encode "OK \r\nOK\r\n"⟩ ∧
      (c.exchange "AT" (.ofMillis 1)).2.board.board.modem.waiting.map Prod.snd = Utf8.encode "+I" := by
  intro bench c
  have fits : (Utf8.encode "AT").length ≤ commandRoom := by decide
  have framed := (exchange_framed (.ofMillis 1) c).1 "AT" fits
  have frames : IsFrame (c.heard (.ofMillis 1)) (Utf8.encode "OK \r\nOK\r\n") := by decide +kernel
  obtain ⟨result, rest⟩ := framed.answered (by decide +kernel) _ frames
  refine ⟨fits, ?_, ?_⟩
  · rw [result]
    decide +kernel
  · rw [rest]
    decide +kernel

end At.Channel
end AirMonitor
