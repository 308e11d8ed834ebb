import AirMonitor.Board.Recorded
import AirMonitor.Proofs.At.Framing

/-!
Conversations: exchanges that follow each other. An exchange depends on the board and on
what is sent, and not on the log (`exchangeBytes_eq`). On a board that remembers what was
done with it, a conversation leaves its transmissions and nothing else (`acts_conversed`).
-/
namespace AirMonitor

namespace At
variable {σ : Type} [Board σ]

/-- What goes out for a command. -/
def commandLine (command : String) : Bytes := Utf8.encode command ++ lineBreak

/-- An exchange as the board sees it. -/
def converse (timeout : Duration) (data : Bytes) (b : σ) : Except CommError Response × σ :=
  let b := (Board.discard .modem b).2
  match Board.transmit .modem data b with
  | (false, after) => (.error .timeout, after)
  | (true, after) => Channel.readMore (Board.now b + timeout) Response.room [] after

/-- Only a command can be too long, so reading never fails for that. -/
theorem readMore_fits (deadline : Instant) (room : Nat) (newestFirst : Bytes) (b : σ) :
    (Channel.readMore deadline room newestFirst b).1 ≠ .error .commandTooLong := by
  induction room generalizing newestFirst b with
  | zero => simp [Channel.readMore]
  | succ room ih =>
    unfold Channel.readMore
    rcases Board.receive .modem deadline b with ⟨_ | byte, c⟩
    · simp
    · cases verdict : verdictOfReverse? (byte :: newestFirst) with
      | none =>
        simp only [verdict]
        exact ih _ _
      | some ending => cases ending <;> simp [verdict]

theorem converse_fits (timeout : Duration) (data : Bytes) (b : σ) :
    (converse timeout data b).1 ≠ .error .commandTooLong := by
  simp only [converse]
  generalize Board.transmit .modem data (Board.discard .modem b).2 = transmitted
  rcases transmitted with ⟨_ | _, after⟩
  · simp
  · exact readMore_fits _ _ _ _

theorem exchangeBytes_eq (data : Bytes) (timeout : Duration) (c : Channel σ) :
    (c.exchangeBytes data timeout).1 = (converse timeout data c.board).1 ∧
      (c.exchangeBytes data timeout).2.board = (converse timeout data c.board).2 := by
  simp only [Channel.exchangeBytes, converse, Channel.now, Channel.board_discardStale]
  rcases Board.transmit .modem data (Board.discard .modem c.board).2 with ⟨sent, b⟩
  cases sent <;> exact ⟨rfl, rfl⟩

theorem exchange_eq {command : String} (fits : (Utf8.encode command).length ≤ Channel.commandRoom) (timeout : Duration)
    (c : Channel σ) : c.exchange command timeout = c.exchangeBytes (commandLine command) timeout :=
  if_neg (Nat.not_lt.mpr fits)

/-- The results of exchanges that follow each other, as far as the first that fails. -/
def replies (timeout : Duration) : List Bytes → σ → List (Except CommError Response)
  | [], _ => []
  | data :: more, b =>
    match converse timeout data b with
    | (.error e, _) => [.error e]
    | (.ok response, b) => .ok response :: replies timeout more b

/-- The board after exchanges that follow each other. -/
def conversed (timeout : Duration) (data : List Bytes) (b : σ) : σ :=
  data.foldl (fun b data => (converse timeout data b).2) b

/-- The exchange at a place was made and succeeded. -/
def succeeded (replies : List (Except CommError Response)) (place : Nat) : Bool := replies[place]?.any Except.isOk

theorem succeeded_eq (responses : List Response) (failure : List CommError) (place : Nat) :
    succeeded (responses.map .ok ++ failure.map .error) place = decide (place < responses.length) := by
  unfold succeeded
  by_cases early : place < responses.length
  · rw [List.getElem?_append_left (by simpa using early)]
    simp [early, Except.isOk, Except.toBool]
  · rw [List.getElem?_append_right (by simpa using early), List.getElem?_map]
    cases failure[place - (responses.map Except.ok).length]? <;> simp [early, Except.isOk, Except.toBool]

variable {timeout : Duration} {data : Bytes} {more : List Bytes} {b after : σ}

theorem replies_failed {e : CommError} (failed : converse timeout data b = (.error e, after)) :
    replies timeout (data :: more) b = [.error e] := by
  rw [replies, failed]

theorem replies_answered {response : Response} (answered : converse timeout data b = (.ok response, after)) :
    replies timeout (data :: more) b = .ok response :: replies timeout more after := by
  rw [replies, answered]

end At

/-! ### What is done with the board -/

namespace Recorded
variable {σ : Type} [Board σ]

/-- What was done, in order, whenever it was. -/
def acts (r : Recorded σ) : List Deed := r.history.map Prod.snd

theorem deeds_readMore (deadline : Instant) (room : Nat) (newestFirst : Bytes) (r : Recorded σ) :
    (At.Channel.readMore deadline room newestFirst r).2.deeds = r.deeds := by
  induction room generalizing newestFirst r with
  | zero => rfl
  | succ room ih =>
    rw [At.Channel.readMore, receive_eq]
    cases (Board.receive .modem deadline r.board).1 with
    | none => rfl
    | some byte =>
      cases verdict : At.verdictOfReverse? (byte :: newestFirst) with
      | none =>
        simp only [verdict]
        exact ih _ _
      | some ending => cases ending <;> simp only [verdict]

theorem acts_converse (timeout : Duration) (data : Bytes) (r : Recorded σ) :
    (At.converse timeout data r).2.acts = r.acts ++ [.transmit .modem data] := by
  have discarded : (Board.discard .modem r).2.deeds = r.deeds := by rw [discard_eq]
  have deeds : ∃ time, (At.converse timeout data r).2.deeds = (time, .transmit .modem data) :: r.deeds := by
    have noted : (Board.transmit .modem data (Board.discard .modem r).2).2.deeds =
        (Board.discard .modem r).2.note (.transmit .modem data) := rfl
    rw [← discarded, At.converse]
    generalize Board.transmit .modem data (Board.discard .modem r).2 = transmitted at noted ⊢
    rcases transmitted with ⟨_ | _, after⟩
    · exact ⟨_, noted⟩
    · exact ⟨_, (deeds_readMore _ _ _ _).trans noted⟩
  obtain ⟨time, deeds⟩ := deeds
  simp [acts, history, deeds]

theorem acts_conversed (timeout : Duration) (data : List Bytes) (r : Recorded σ) :
    (At.conversed timeout data r).acts = r.acts ++ data.map (.transmit .modem) := by
  induction data generalizing r with
  | nil => simp [At.conversed]
  | cons first data ih =>
    have rest := ih (At.converse timeout first r).2
    rw [acts_converse, List.append_assoc] at rest
    exact rest

theorem readMore_left (deadline : Instant) (room : Nat) (newestFirst : Bytes) (r : Recorded Bench) :
    ∃ waiting now, (At.Channel.readMore deadline room newestFirst r).2.board = r.board.left waiting now := by
  induction room generalizing newestFirst r with
  | zero => exact ⟨r.board.modem.waiting, r.board.now, rfl⟩
  | succ room ih =>
    obtain ⟨waiting, now, moved⟩ := Bench.receive_left deadline r.board
    rw [At.Channel.readMore, receive_eq, moved]
    cases (Board.receive .modem deadline r.board).1 with
    | none => exact ⟨waiting, now, rfl⟩
    | some byte =>
      cases verdict : At.verdictOfReverse? (byte :: newestFirst) with
      | none =>
        obtain ⟨waiting', now', moved'⟩ := ih (byte :: newestFirst) { r with board := r.board.left waiting now }
        simp only [verdict]
        exact ⟨waiting', now', moved'⟩
      | some ending => cases ending <;> simp only [verdict] <;> exact ⟨waiting, now, rfl⟩

/-- An exchange takes one answer from the script, and a fault that comes with it stays to be seen. -/
theorem converse_left (timeout : Duration) (data : Bytes) (r : Recorded Bench) :
    ∃ waiting now, (At.converse timeout data r).2.board = r.board.spent.left waiting now := by
  obtain ⟨waiting, now, discarded⟩ := Bench.discard_left r.board
  have transmitted : ∃ sent waiting' now' deeds, Board.transmit .modem data (Board.discard .modem r).2 =
      (sent, ⟨r.board.spent.left waiting' now', deeds⟩) := by
    rw [discard_eq, discarded]
    show ∃ sent waiting' now' deeds, ((Board.transmit .modem data (r.board.left waiting now)).1,
      (⟨(Board.transmit .modem data (r.board.left waiting now)).2, _⟩ : Recorded Bench)) = _
    rw [Bench.transmit_eq]
    exact ⟨_, _, _, _, rfl⟩
  obtain ⟨sent, waiting', now', deeds, transmitted⟩ := transmitted
  simp only [At.converse, transmitted]
  cases sent with
  | false => exact ⟨waiting', now', rfl⟩
  | true =>
    obtain ⟨waiting'', now'', moved⟩ := readMore_left (Board.now (Board.discard .modem r).2 + timeout) At.Response.room []
      ⟨r.board.spent.left waiting' now', deeds⟩
    exact ⟨waiting'', now'', moved⟩

end Recorded
end AirMonitor
