import AirMonitor.Board.Recorded
import AirMonitor.Log.Drain
import AirMonitor.Proofs.Log.Ring

/-!
What a pump does, in one equation (`pump_eq`): it drains every stream, transmits the lines
of the entries up to a level and then those that report drops, and goes on when the UART
gives a line up.
-/
namespace AirMonitor.LogDrain
variable {σ : Type} [Board σ] {N : Nat}

/-! ### Lines -/

/-- Transmits lines one after the other, whatever becomes of each. -/
def transmitAll (uart : Uart) (lines : List Bytes) (board : σ) : σ :=
  lines.foldl (fun board line => (Board.transmit uart line board).2) board

/-- The lines of the entries up to a level. -/
def linesUpTo (most : LogLevel) (entries : List LogEntry) : List Bytes :=
  (entries.filter fun entry => entry.level.rank ≤ most.rank).map (·.toLine lineRoom)

theorem linesUpTo_clean (most : LogLevel) (entries : List LogEntry) :
    linesUpTo most (entries.map .clean) = linesUpTo most entries := by
  rw [linesUpTo, List.filter_map, List.map_map]
  refine List.map_congr_left fun entry _ => ?_
  rw [Function.comp_apply, LogEntry.toLine_clean]

/-- The drops of a stream that are reported, if it is time. -/
def report? (now : Instant) (drain : LogDrain) (stream : LogStream N) : Option UInt32 :=
  if reportInterval ≤ now.toInt - drain.lastReport.toInt ∧ stream.dropped ≠ 0 then some stream.dropped else none

/-- The lines that report the drops of streams. -/
def dropLines (now : Instant) (drain : LogDrain) (streams : List (LogStream N)) : List Bytes :=
  streams.zipIdx.filterMap fun (stream, index) => (drain.report? now stream).map (dropLine now index)

theorem transmitAll_append (uart : Uart) (lines more : List Bytes) (board : σ) :
    transmitAll uart (lines ++ more) board = transmitAll uart more (transmitAll uart lines board) :=
  List.foldl_append

theorem sent_transmitAll (uart : Uart) (lines : List Bytes) (r : Recorded σ) :
    (transmitAll uart lines r).sent uart = r.sent uart ++ lines := by
  induction lines generalizing r with
  | nil => exact (List.append_nil _).symm
  | cons line lines ih =>
    have sent : (Board.transmit uart line r).2.sent uart = r.sent uart ++ [line] := by
      show (List.reverse (_ :: r.deeds)).filterMap _ = _
      rw [List.reverse_cons, List.filterMap_append]
      simp [Recorded.sent, Recorded.history]
    exact (ih _).trans (by rw [sent, List.append_assoc]; rfl)

/-! ### Emptying and reporting -/

theorem empty_eq (uart : Uart) (most : LogLevel) (count : Nat) (stream : LogStream N) (board : σ) :
    empty uart most count stream board =
      ((stream.drainUpTo count).1.length, (stream.drainUpTo count).2,
        transmitAll uart (linesUpTo most (stream.drainUpTo count).1) board) := by
  induction count generalizing stream board with
  | zero => rfl
  | succ count ih =>
    rw [empty, LogStream.drainUpTo]
    cases stream.drain? with
    | none => rfl
    | some taken =>
      simp only [ih, List.length_cons, linesUpTo, List.filter_cons]
      by_cases shown : taken.1.level.rank ≤ most.rank
      · simp [shown, transmitAll]
      · simp [shown]

theorem emptyAll_eq (uart : Uart) (most : LogLevel) (streams : List (LogStream N)) (board : σ) :
    emptyAll uart most streams board =
      ((streams.map (·.drainAll.1.length)).sum, streams.map (·.drainAll.2),
        transmitAll uart (streams.flatMap fun s => linesUpTo most s.drainAll.1) board) := by
  induction streams generalizing board with
  | nil => rfl
  | cons stream streams ih =>
    simp only [emptyAll, empty_eq, ih, List.map_cons, List.sum_cons, List.flatMap_cons, transmitAll_append]
    rfl

theorem reportDrops_eq (uart : Uart) (now : Instant) (index : Nat) (streams : List (LogStream N)) (board : σ) :
    reportDrops uart now index streams board =
      (streams.map (·.resetDropped),
        transmitAll uart ((streams.zipIdx index).filterMap fun (stream, index) =>
          if stream.dropped = 0 then none else some (dropLine now index stream.dropped)) board) := by
  induction streams generalizing index board with
  | nil => rfl
  | cons stream streams ih =>
    simp only [reportDrops, ih, List.map_cons, List.zipIdx_cons, List.filterMap_cons]
    by_cases none_dropped : stream.dropped = 0
    · have same : stream.resetDropped = stream := by
        cases stream
        simp_all [LogStream.resetDropped]
      simp [none_dropped, same]
    · simp [none_dropped, transmitAll]

/-! ### Pumping -/

/-- What a pump makes of a stream. -/
def pumped (now : Instant) (drain : LogDrain) (stream : LogStream N) : LogStream N :=
  if reportInterval ≤ now.toInt - drain.lastReport.toInt then stream.drainAll.2.resetDropped else stream.drainAll.2

theorem pump_eq (uart : Uart) (now : Instant) (most : LogLevel) (drain : LogDrain) (streams : List (LogStream N))
    (board : σ) :
    pump uart now most drain streams board =
      { consumed := (streams.map (·.drainAll.1.length)).sum
        drain := if reportInterval ≤ now.toInt - drain.lastReport.toInt then ⟨now⟩ else drain
        streams := streams.map (drain.pumped now)
        board := transmitAll uart
          ((streams.flatMap fun s => linesUpTo most s.drainAll.1) ++ drain.dropLines now streams) board } := by
  have dropped (s : LogStream N) : s.drainAll.2.dropped = s.dropped := LogStream.dropped_drainUpTo _ s
  simp only [pump, emptyAll_eq, reportDrops_eq, transmitAll_append]
  by_cases due : reportInterval ≤ now.toInt - drain.lastReport.toInt
  · have lines : ((streams.map (·.drainAll.2)).zipIdx 0).filterMap (fun (stream, index) =>
        if stream.dropped = 0 then none else some (dropLine now index stream.dropped)) =
          drain.dropLines now streams := by
      rw [List.zipIdx_map, List.filterMap_map, dropLines]
      refine congrArg (List.filterMap · _) (funext fun (stream, index) => ?_)
      by_cases none_dropped : stream.dropped = 0
      · simp [report?, dropped, none_dropped]
      · simp [report?, dropped, none_dropped, due]
    simp only [if_pos due, lines, List.map_map]
    congr 1
    exact List.map_congr_left fun s _ => (if_pos due).symm
  · have lines : drain.dropLines now streams = [] := by simp [dropLines, report?, due]
    simp only [if_neg due, lines]
    congr 1
    exact List.map_congr_left fun s _ => (if_neg due).symm

/-- A pump leaves no entry in a stream. -/
theorem sound_pumped (power : N.isPowerOfTwo) {stream : LogStream N} (sound : stream.Sound) (now : Instant)
    (drain : LogDrain) : (drain.pumped now stream).Sound ∧ (drain.pumped now stream).held = [] := by
  obtain ⟨-, still, -⟩ := sound.drains power
  have emptied := sound.held_drained power
  unfold pumped
  split_ifs
  · exact ⟨still.counting 0, (still.held_counting power 0).trans emptied⟩
  · exact ⟨still, emptied⟩

end AirMonitor.LogDrain
