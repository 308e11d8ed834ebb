import AirMonitor.Board.Bench
import AirMonitor.Proofs.Log.Lines
import Mathlib.Data.UInt

/-!
The books of a log pipeline. For each of its streams they tell which entries were accepted,
how many were refused, which ones the pumps took and which drops were reported
(`LogAccount`). An act leaves them in order (`Balanced.act`), so they are in order after
any run (`pipeline_accounts`).
-/
namespace AirMonitor
open LogDrain

variable {σ : Type} [Board σ] {N : Nat}

/-! ### Runs -/

/-- Log streams and what pumps them. -/
structure LogPipeline (N : Nat) (σ : Type) where
  drain : LogDrain := {}
  streams : List (LogStream N)
  board : Recorded σ

/-- What is done with a pipeline. -/
inductive LogAct
  | push (index : Nat) (time : Instant) (level : LogLevel) (message : Bytes)
  | pump (now : Instant) (most : LogLevel)

/-- When an act pumps. -/
def LogAct.pumpTime? : LogAct → Option Instant
  | push .. => none
  | pump now _ => some now

namespace LogPipeline

/-- A pipeline that nothing was done with. -/
def fresh (count : Nat) (board : Recorded σ) : LogPipeline N σ := { streams := .replicate count {}, board }

def stream (p : LogPipeline N σ) (i : Nat) : LogStream N := p.streams[i]?.getD {}

def pump (uart : Uart) (now : Instant) (most : LogLevel) (p : LogPipeline N σ) : Pumped N (Recorded σ) :=
  LogDrain.pump uart now most p.drain p.streams p.board

def act (uart : Uart) (p : LogPipeline N σ) : LogAct → LogPipeline N σ
  | .push i time level message =>
    { p with streams := p.streams.modify i fun s => (s.push time level message).2 }
  | .pump now most =>
    let out := p.pump uart now most
    ⟨out.drain, out.streams, out.board⟩

def run (uart : Uart) (acts : List LogAct) (p : LogPipeline N σ) : LogPipeline N σ := acts.foldl (act uart) p

end LogPipeline

/-- The account of one stream. -/
structure LogAccount where
  /-- The entries that were accepted, in order. -/
  accepted : List LogEntry := []
  /-- How many entries were refused. -/
  refused : Nat := 0
  /-- The entries that pumps took, in order. -/
  taken : List LogEntry := []
  /-- The drops that were reported, with the time. -/
  reports : List (Instant × UInt32) := []

namespace LogAccount

/-- Enters what an act does to a stream of a pipeline. -/
def enter (i : Nat) (p : LogPipeline N σ) (a : LogAccount) : LogAct → LogAccount
  | .push j time level message =>
    if j ≠ i then a
    else if ((p.stream i).push time level message).1 then { a with accepted := a.accepted ++ [.of time level message] }
    else { a with refused := a.refused + 1 }
  | .pump now _ => { a with
      taken := a.taken ++ (p.stream i).held
      reports := a.reports ++ ((p.drain.report? now (p.stream i)).map (now, ·)).toList }

/-- The account after a run. -/
def after (uart : Uart) (i : Nat) : List LogAct → LogPipeline N σ → LogAccount → LogAccount
  | [], _, a => a
  | act :: acts, p, a => after uart i acts (p.act uart act) (a.enter i p act)

end LogAccount

/-! ### Streams of a pipeline -/

namespace LogPipeline

variable {uart : Uart} {p : LogPipeline N σ} {i j : Nat} {time now : Instant} {level most : LogLevel} {message : Bytes}

theorem length_act (act : LogAct) : (p.act uart act).streams.length = p.streams.length := by
  cases act with
  | push j time level message => exact List.length_modify _ _ _
  | pump now most =>
    rw [LogPipeline.act, LogPipeline.pump, pump_eq]
    exact List.length_map _

theorem stream_push (inside : i < p.streams.length) :
    (p.act uart (.push i time level message)).stream i = ((p.stream i).push time level message).2 := by
  simp [act, stream, inside]

theorem stream_push_ne (other : j ≠ i) : (p.act uart (.push j time level message)).stream i = p.stream i := by
  simp [act, stream, other]

theorem stream_pump (inside : i < p.streams.length) :
    (p.act uart (.pump now most)).stream i = p.drain.pumped now (p.stream i) := by
  rw [act, LogPipeline.pump, pump_eq]
  simp [stream, inside]

theorem drain_pump : (p.act uart (.pump now most)).drain =
    if reportInterval ≤ now.toInt - p.drain.lastReport.toInt then ⟨now⟩ else p.drain := by
  rw [act, LogPipeline.pump, pump_eq]

omit [Board σ] in
theorem mem_streams {s : LogStream N} (member : s ∈ p.streams) : ∃ i < p.streams.length, p.stream i = s := by
  obtain ⟨i, inside, rfl⟩ := List.mem_iff_getElem.mp member
  exact ⟨i, inside, by simp [stream, inside]⟩

omit [Board σ] in
theorem stream_fresh (i count : Nat) (board : Recorded σ) : (fresh count board : LogPipeline N σ).stream i = {} := by
  rw [stream, fresh, List.getElem?_replicate]
  split <;> rfl

theorem length_run (acts : List LogAct) : (p.run uart acts).streams.length = p.streams.length := by
  induction acts generalizing p with
  | nil => rfl
  | cons act acts ih => exact ih.trans (length_act act)

/-- The time of the last report is that of a pump, unless it is the one from the start. -/
theorem lastReport_run (acts : List LogAct) (p : LogPipeline N σ) :
    (p.run uart acts).drain.lastReport = p.drain.lastReport ∨
      (p.run uart acts).drain.lastReport ∈ acts.filterMap LogAct.pumpTime? := by
  induction acts generalizing p with
  | nil => exact .inl rfl
  | cons act acts ih =>
    cases act with
    | push j time level message => exact ih _
    | pump now most =>
      rcases ih (p.act uart (.pump now most)) with same | later
      · rw [drain_pump] at same
        split_ifs at same with due
        · exact .inr (List.mem_cons.mpr (.inl same))
        · exact .inl same
      · exact .inr (List.mem_cons_of_mem _ later)

end LogPipeline

/-! ### Reports -/

/-- The reports of a stream account for the entries that it refused, and come at intervals. -/
structure Reported (drain : LogDrain) (dropped : UInt32) (refused : Nat) (reports : List (Instant × UInt32)) :
    Prop where
  drops : .ofNat refused = (reports.map Prod.snd).sum + dropped
  apart : (reports.map (·.1.toInt)).Pairwise fun earlier later => earlier + reportInterval ≤ later
  late : ∀ r ∈ reports, reportInterval ≤ r.1.toInt
  past : ∀ r ∈ reports, r.1.toInt ≤ drain.lastReport.toInt
  booted : 0 ≤ drain.lastReport.toInt

namespace Reported
variable {drain : LogDrain} {dropped : UInt32} {refused : Nat} {reports : List (Instant × UInt32)} {now : Instant}

theorem refuse (reported : Reported drain dropped refused reports) :
    Reported drain (dropped + 1) (refused + 1) reports := by
  refine { reported with drops := ?_ }
  rw [UInt32.ofNat_add, reported.drops, UInt32.add_assoc]
  rfl

/-- The time of the last report moves on. -/
theorem elapse (reported : Reported drain dropped refused reports) (passes : drain.lastReport.toInt ≤ now.toInt) :
    Reported ⟨now⟩ dropped refused reports :=
  { reported with
    past := fun r member => (reported.past r member).trans passes
    booted := reported.booted.trans passes }

/-- The drops are reported and forgotten. -/
theorem report (reported : Reported drain dropped refused reports)
    (due : reportInterval ≤ now.toInt - drain.lastReport.toInt) :
    Reported ⟨now⟩ 0 refused (reports ++ [(now, dropped)]) := by
  have booted := reported.booted
  have passes : drain.lastReport.toInt ≤ now.toInt := by
    unfold reportInterval at due
    omega
  obtain ⟨drops, apart, late, past, now_booted⟩ := reported.elapse passes
  refine ⟨?_, ?_, ?_, ?_, now_booted⟩
  · rw [drops, List.map_append, List.sum_append]
    simp
  · rw [List.map_append, List.pairwise_append]
    refine ⟨apart, List.pairwise_singleton _ _, ?_⟩
    intro earlier before later new
    obtain ⟨r, member, rfl⟩ := List.mem_map.mp before
    rw [List.map_singleton, List.mem_singleton] at new
    rw [new]
    have := reported.past r member
    show r.1.toInt + reportInterval ≤ now.toInt
    omega
  · intro r member
    rcases List.mem_append.mp member with before | new
    · exact late r before
    · rw [List.mem_singleton.mp new]
      show reportInterval ≤ now.toInt
      omega
  · intro r member
    rcases List.mem_append.mp member with before | new
    · exact past r before
    · rw [List.mem_singleton.mp new]

theorem pump {stream : LogStream N} (reported : Reported drain stream.dropped refused reports) :
    Reported (if reportInterval ≤ now.toInt - drain.lastReport.toInt then ⟨now⟩ else drain)
      (drain.pumped now stream).dropped refused
      (reports ++ ((drain.report? now stream).map (now, ·)).toList) := by
  have dropped : stream.drainAll.2.dropped = stream.dropped := LogStream.dropped_drainUpTo _ _
  unfold pumped report?
  by_cases due : reportInterval ≤ now.toInt - drain.lastReport.toInt
  · rw [if_pos due, if_pos due]
    by_cases none_dropped : stream.dropped = 0
    · have passes : drain.lastReport.toInt ≤ now.toInt := by
        unfold reportInterval at due
        omega
      rw [none_dropped] at reported
      simpa [none_dropped] using reported.elapse passes
    · simpa [due, none_dropped] using reported.report due
  · rw [if_neg due, if_neg due, dropped]
    simpa [due] using reported

end Reported

/-! ### Balance -/

/-- The account of a stream is in order. -/
structure Balanced (i : Nat) (p : LogPipeline N σ) (a : LogAccount) : Prop where
  sound : (p.stream i).Sound
  entries : a.accepted = a.taken ++ (p.stream i).held
  reported : Reported p.drain (p.stream i).dropped a.refused a.reports

namespace Balanced
variable {uart : Uart} {p : LogPipeline N σ} {a : LogAccount} {i : Nat}

omit [Board σ] in
theorem fresh (i count : Nat) (board : Recorded σ) : Balanced i (.fresh count board : LogPipeline N σ) {} := by
  have stream := LogPipeline.stream_fresh (N := N) i count board
  refine ⟨?_, ?_, ⟨?_, .nil, nofun, nofun, Int.le_refl 0⟩⟩
  · rw [stream]
    exact LogStream.sound_fresh
  · rw [stream, LogStream.held_fresh]
    rfl
  · rw [stream]
    rfl

theorem act (power : N.isPowerOfTwo) (inside : i < p.streams.length) (balanced : Balanced i p a) (act : LogAct) :
    Balanced i (p.act uart act) (a.enter i p act) := by
  obtain ⟨sound, entries, reported⟩ := balanced
  cases act with
  | push j time level message =>
    by_cases other : j ≠ i
    · rw [LogAccount.enter, if_pos other]
      have stream : (p.act uart (.push j time level message)).stream i = p.stream i :=
        LogPipeline.stream_push_ne other
      refine ⟨?_, ?_, ?_⟩ <;> rw [stream] <;> assumption
    · rw [not_not] at other
      subst other
      have stream : (p.act uart (.push j time level message)).stream j = ((p.stream j).push time level message).2 :=
        LogPipeline.stream_push inside
      rcases sound.push_cases power time level message with refused | ⟨s, accepted, still, held, dropped⟩
      · have account : a.enter j p (.push j time level message) = { a with refused := a.refused + 1 } := by
          simp [LogAccount.enter, refused]
        rw [refused] at stream
        rw [account]
        refine ⟨?_, ?_, ?_⟩ <;> rw [stream]
        · exact sound.counting _
        · rw [sound.held_counting power]
          exact entries
        · exact reported.refuse
      · have account : a.enter j p (.push j time level message) =
            { a with accepted := a.accepted ++ [.of time level message] } := by
          simp [LogAccount.enter, accepted]
        rw [accepted] at stream
        rw [account]
        refine ⟨?_, ?_, ?_⟩ <;> rw [stream]
        · exact still
        · rw [held, entries, List.append_assoc]
        · rw [dropped]
          exact reported
  | pump now most =>
    have stream : (p.act uart (.pump now most)).stream i = p.drain.pumped now (p.stream i) :=
      LogPipeline.stream_pump inside
    have drain : (p.act uart (.pump now most)).drain = _ := LogPipeline.drain_pump
    obtain ⟨still, emptied⟩ := sound_pumped power sound now p.drain
    refine ⟨?_, ?_, ?_⟩
    · rw [stream]
      exact still
    · rw [stream, emptied, List.append_nil]
      exact entries
    · rw [stream, drain]
      exact reported.pump

theorem run (power : N.isPowerOfTwo) (inside : i < p.streams.length) (balanced : Balanced i p a) (acts : List LogAct) :
    Balanced i (p.run uart acts) (a.after uart i acts p) := by
  induction acts generalizing p a with
  | nil => exact balanced
  | cons act acts ih =>
    exact ih (by rwa [LogPipeline.length_act]) (balanced.act power inside act)

/-- All streams of a pipeline are sound after a run. -/
theorem sound_run (power : N.isPowerOfTwo) (count : Nat) (board : Recorded σ) (acts : List LogAct) :
    ∀ s ∈ ((LogPipeline.fresh count board : LogPipeline N σ).run uart acts).streams, s.Sound := by
  intro s member
  obtain ⟨i, inside, rfl⟩ := LogPipeline.mem_streams member
  rw [LogPipeline.length_run] at inside
  exact ((fresh i count board).run power inside acts).sound

end Balanced

/-! ### Pumps -/

namespace LogPipeline
variable {uart : Uart} {p : LogPipeline N σ}

theorem pump_takes (power : N.isPowerOfTwo) (sound : ∀ s ∈ p.streams, s.Sound) (now : Instant) (most : LogLevel) :
    let out := p.pump uart now most
    out.consumed = (p.streams.map (·.held.length)).sum ∧
    out.board.sent uart = p.board.sent uart ++ (p.streams.flatMap fun s => linesUpTo most s.held) ++
      p.drain.dropLines now p.streams ∧
    ∀ s ∈ out.streams, s.held = [] := by
  intro out
  have equation : out = _ := pump_eq uart now most p.drain p.streams p.board
  refine ⟨?_, ?_, ?_⟩
  · rw [equation]
    simp [LogStream.held]
  · rw [equation, sent_transmitAll, ← List.append_assoc]
    simp only [LogStream.held, linesUpTo_clean]
  · rw [equation]
    intro s member
    obtain ⟨before, there, rfl⟩ := List.mem_map.mp member
    exact (sound_pumped power (sound before there) now p.drain).2

theorem booted_run (acts : List LogAct) (booted : 0 ≤ p.drain.lastReport.toInt) :
    0 ≤ (p.run uart acts).drain.lastReport.toInt := by
  induction acts generalizing p with
  | nil => exact booted
  | cons act acts ih =>
    refine ih ?_
    cases act with
    | push j time level message => exact booted
    | pump now most =>
      rw [drain_pump]
      split_ifs with due
      · show 0 ≤ now.toInt
        unfold reportInterval at due
        omega
      · exact booted

/-- If no pump comes before another one, 64 bits hold the time since the last report. -/
theorem elapsed_fits (count : Nat) (board : Recorded σ) (acts : List LogAct) (now : Instant)
    (passes : ∀ t ∈ acts.filterMap LogAct.pumpTime?, t ≤ now) :
    let elapsed := now.toInt - ((fresh count board : LogPipeline N σ).run uart acts).drain.lastReport.toInt
    Int64.minValue.toInt ≤ elapsed ∧ elapsed ≤ Int64.maxValue.toInt := by
  intro elapsed
  rw [Int64.toInt_minValue, Int64.toInt_maxValue]
  have lower := now.toInt_lower
  have upper := now.toInt_upper
  have booted : 0 ≤ ((fresh count board : LogPipeline N σ).run uart acts).drain.lastReport.toInt :=
    booted_run acts (Int.le_refl 0)
  rcases lastReport_run acts (fresh count board : LogPipeline N σ) with unchanged | pumped
  · have at_boot : ((fresh count board : LogPipeline N σ).run uart acts).drain.lastReport.toInt = 0 := by
      rw [unchanged]
      rfl
    omega
  · have before : _ ≤ now.toInt := passes _ pumped
    omega

end LogPipeline

/-- The streams of a pipeline are accounted for after any run in which the times of the
    pumps never decrease. What a stream accepted was taken by a pump or is pending, in
    order, and what it refused is in its reports or counted. Its reports are ten seconds
    apart and none is made earlier. A pump takes all that is pending, transmits the lines up
    to its level and then the reports, each in full with the number of its stream and its count,
    and the time since the last report is one that 64 bits hold. -/
theorem pipeline_accounts (power : N.isPowerOfTwo) (uart : Uart) (count : Nat) (board : Recorded σ)
    (acts : List LogAct) (ordered : (acts.filterMap LogAct.pumpTime?).Pairwise (· ≤ ·)) :
    let start : LogPipeline N σ := .fresh count board
    (∀ i < count,
      let s := (start.run uart acts).stream i
      let a := LogAccount.after uart i acts start {}
      a.accepted = a.taken ++ s.held ∧ s.held.length = s.pending ∧
      .ofNat a.refused = (a.reports.map Prod.snd).sum + s.dropped ∧
      ((a.reports.map (·.1.toInt)).Pairwise fun earlier later => earlier + 10000000 ≤ later) ∧
      ∀ r ∈ a.reports, 10000000 ≤ r.1.toInt) ∧
    ∀ before now most after, acts = before ++ .pump now most :: after →
      let p := start.run uart before
      let out := p.pump uart now most
      let elapsed := now.toInt - p.drain.lastReport.toInt
      out.consumed = (p.streams.map (·.held.length)).sum ∧
      out.board.sent uart = p.board.sent uart ++ (p.streams.flatMap fun s => linesUpTo most s.held) ++
        p.drain.dropLines now p.streams ∧
      (count ≤ 18446744073709551616 → p.drain.dropLines now p.streams = p.streams.zipIdx.filterMap fun (s, index) =>
        (p.drain.report? now s).map fun dropped => Utf8.encode (dropText now index dropped)) ∧
      (∀ s ∈ out.streams, s.held = []) ∧
      Int64.minValue.toInt ≤ elapsed ∧ elapsed ≤ Int64.maxValue.toInt := by
  intro start
  refine ⟨fun i inside => ?_, ?_⟩
  · have in_start : i < start.streams.length := by simpa [start, LogPipeline.fresh] using inside
    obtain ⟨sound, entries, reported⟩ := (Balanced.fresh i count board).run power in_start acts
    exact ⟨entries, sound.length_held power, reported.drops, reported.apart, reported.late⟩
  · rintro before now most after rfl
    intro p out elapsed
    obtain ⟨consumed, sent, emptied⟩ := p.pump_takes power (Balanced.sound_run power count board before) now most
    have passes : ∀ t ∈ before.filterMap LogAct.pumpTime?, t ≤ now := by
      rw [List.filterMap_append, List.pairwise_append] at ordered
      exact fun t member => ordered.2.2 t member now List.mem_cons_self
    have length : p.streams.length = count := by simp [p, start, LogPipeline.length_run, LogPipeline.fresh]
    refine ⟨consumed, sent, fun few => ?_, emptied, LogPipeline.elapsed_fits count board before now passes⟩
    exact dropLines_whole (length.trans_le few) p.drain now

/-- Three messages for a stream that holds two, one for another stream, and a pump. -/
def overfilling : List LogAct :=
  [.push 0 ⟨1⟩ .info [65], .push 0 ⟨2⟩ .debug [66], .push 1 ⟨3⟩ .warn [67], .push 0 ⟨4⟩ .info [68],
    .pump ⟨10000000⟩ .info]

theorem pipeline_accounts_overfilling :
    let start : LogPipeline 2 Bench := .fresh 2 { board := {} }
    let s := (start.run .console overfilling).stream 0
    let a := LogAccount.after .console 0 overfilling start {}
    a.reports = [(⟨10000000⟩, 1)] ∧ a.refused = 1 ∧ a.accepted = a.taken ++ s.held ∧
      .ofNat a.refused = (a.reports.map Prod.snd).sum + s.dropped ∧
      ((start.run .console (overfilling.take 4)).pump .console ⟨10000000⟩ .info).consumed = 3 ∧
      ∃ lines, ((start.run .console (overfilling.take 4)).pump .console ⟨10000000⟩ .info).board.sent .console =
        lines ++ [Utf8.encode (dropText ⟨10000000⟩ 0 1)] := by
  intro start s a
  have ordered : (overfilling.filterMap LogAct.pumpTime?).Pairwise (· ≤ ·) := by decide
  obtain ⟨accounts, pumps⟩ := pipeline_accounts ⟨1, rfl⟩ .console 2 { board := ({} : Bench) } overfilling ordered
  obtain ⟨entries, -, drops, -⟩ := accounts 0 (by decide)
  obtain ⟨consumed, sent, reported, -⟩ := pumps (overfilling.take 4) ⟨10000000⟩ .info [] rfl
  refine ⟨by decide +kernel, by decide +kernel, entries, drops, ?_, _, sent.trans (congrArg _ ?_)⟩
  · rw [consumed]
    decide +kernel
  · rw [reported (by decide)]
    decide +kernel

end AirMonitor
