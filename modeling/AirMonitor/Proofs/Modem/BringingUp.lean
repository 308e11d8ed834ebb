import AirMonitor.Proofs.Modem.Operations

/-!
Bringing up, probe by probe. A probe is answered, or refused, or it is followed by silence,
and only silence looks at the fault that the line has seen, and takes it (`Probed`). Bringing
up is a course of such probes which ends with the first that is answered, or when all have
been sent (`probe_course`). What is done with the board can be read off that course, and so
can be how often it is reset (`bringUp_course`).
-/
namespace AirMonitor

namespace Session
variable {σ : Type} [Board σ]

/-! ### Probes -/

/-- What became of a probe. -/
inductive Probe
  | answered
  /-- Nothing came in time, or the probe could not be written; and a fault had been seen, or none had. -/
  | silent (fault : Bool)
  /-- The co-processor reported a failure, or its answer had too many bytes. -/
  | refused
deriving DecidableEq

/-- The deeds of one reset. -/
def pulse (timing : Timing) : List Deed := [.reset true, .delay timing.resetHold, .reset false, .delay timing.bootDelay]

/-- The board after one reset. -/
def pulsed (timing : Timing) (b : σ) : σ :=
  Board.delay timing.bootDelay (Board.setReset false (Board.delay timing.resetHold (Board.setReset true b)))

/-- What is done with the board for a probe. -/
def Probe.deeds (timing : Timing) (p : Probe) : List Deed :=
  .transmit .modem (At.commandLine probeCommand) :: if p = .silent true then pulse timing else []

/-- One probe, from board to board. -/
inductive Probed (timing : Timing) : σ → Probe → σ → Prop
  | answered {b c : σ} {response : At.Response}
    (came : At.converse timing.probeTimeout (At.commandLine probeCommand) b = (.ok response, c)) :
    Probed timing b .answered c
  | silent {b c d : σ} {fault : Bool}
    (came : At.converse timing.probeTimeout (At.commandLine probeCommand) b = (.error .timeout, c))
    (taken : Board.takeFault .modem c = (fault, d)) :
    Probed timing b (.silent fault) (if fault then pulsed timing d else d)
  | refused {b c : σ} {e : At.CommError} {response : At.Response}
    (came : At.converse timing.probeTimeout (At.commandLine probeCommand) b = (.error e, c))
    (said : e.response? = some response) :
    Probed timing b .refused c

/-- Probes that follow each other. -/
inductive Course (timing : Timing) : σ → List Probe → σ → Prop
  | done (b : σ) : Course timing b [] b
  | next {b c d : σ} {p : Probe} {probes : List Probe} (first : Probed timing b p c)
    (rest : Course timing c probes d) : Course timing b (p :: probes) d

/-- How bringing up ends that may send `left` of `limit` probes: with the first that is
    answered, or with the last. -/
inductive Ends (limit left : Nat) : List Probe → Except ModemError Unit → LinkPhase → Prop
  | ready {failed : List Probe} (unanswered : .answered ∉ failed) (few : failed.length < left) :
    Ends limit left (failed ++ [.answered]) (.ok ()) .ready
  | failed {failed : List Probe} (unanswered : .answered ∉ failed) (all : failed.length = left) :
    Ends limit left failed (.error (.initFailed limit)) .initFailed

theorem Ends.next {limit left : Nat} {probes : List Probe} {result : Except ModemError Unit} {phase : LinkPhase}
    (ends : Ends limit left probes result phase) {p : Probe} (unanswered : p ≠ .answered) :
    Ends limit (left + 1) (p :: probes) result phase := by
  cases ends with
  | @ready failed none few =>
    have none : .answered ∉ p :: failed := by simp [unanswered.symm, none]
    exact .ready none (Nat.succ_lt_succ few)
  | failed none all => exact .failed (by simp [unanswered.symm, none]) (congrArg Nat.succ all)

theorem exchange_probe (s : Session σ) : ∃ channel, s.channel.exchange probeCommand s.timing.probeTimeout =
    ((At.converse s.timing.probeTimeout (At.commandLine probeCommand) s.board).1, channel) ∧
      channel.board = (At.converse s.timing.probeTimeout (At.commandLine probeCommand) s.board).2 := by
  have fits : (Utf8.encode probeCommand).length ≤ At.Channel.commandRoom := by decide
  obtain ⟨result, board⟩ := At.exchangeBytes_eq (At.commandLine probeCommand) s.timing.probeTimeout s.channel
  rw [At.exchange_eq fits]
  exact ⟨_, Prod.ext result rfl, board⟩

/-- A probe that is not answered is silent or refused, and only silence asks for a fault. -/
theorem afterFailedProbe_probed (attempt limit : Nat) {e : At.CommError} {b : σ} {s : Session σ}
    (came : At.converse s.timing.probeTimeout (At.commandLine probeCommand) b = (.error e, s.board)) :
    ∃ p, p ≠ .answered ∧ Probed s.timing b p (s.afterFailedProbe attempt limit e).board ∧
      (s.afterFailedProbe attempt limit e).timing = s.timing := by
  unfold afterFailedProbe
  by_cases expired : e = .timeout
  · subst expired
    cases taken : Board.takeFault .modem s.board with
    | mk fault d =>
      have probed := Probed.silent came taken
      simp only [if_pos]
      cases fault with
      | false => exact ⟨.silent false, nofun, probed, rfl⟩
      | true => exact ⟨.silent true, nofun, probed, rfl⟩
  · have said : ∃ response, e.response? = some response := by
      cases e with
      | timeout => exact absurd rfl expired
      | deviceReported response => exact ⟨response, rfl⟩
      | bufferExhausted response => exact ⟨response, rfl⟩
      | commandTooLong => exact absurd (congrArg Prod.fst came) (At.converse_fits _ _ _)
    obtain ⟨response, said⟩ := said
    simp only [if_neg expired]
    exact ⟨.refused, nofun, .refused came said, rfl⟩

theorem probe_course (limit left : Nat) (s : Session σ) : ∃ probes,
    Course s.timing s.board probes (s.probe limit left).2.board ∧
      Ends limit left probes (s.probe limit left).1 (s.probe limit left).2.phase := by
  induction left generalizing s with
  | zero => exact ⟨[], .done _, .failed List.not_mem_nil rfl⟩
  | succ left ih =>
    obtain ⟨channel, exchanged, board⟩ := exchange_probe s
    cases came : At.converse s.timing.probeTimeout (At.commandLine probeCommand) s.board with
    | mk result c =>
      rw [came] at exchanged board
      obtain rfl : channel.board = c := board
      cases result with
      | ok response =>
        rw [probe, exchanged]
        have ends : Ends limit (left + 1) ([] ++ [.answered]) (.ok ()) .ready :=
          .ready List.not_mem_nil (Nat.succ_pos left)
        exact ⟨[.answered], .next (.answered came) (.done _), ends⟩
      | error e =>
        obtain ⟨p, unanswered, probed, timing⟩ :=
          afterFailedProbe_probed (s := { s with channel }) (limit - left) limit came
        obtain ⟨probes, course, ends⟩ := ih ({ s with channel }.afterFailedProbe (limit - left) limit e)
        rw [timing] at course
        rw [probe, exchanged]
        exact ⟨p :: probes, .next probed course, ends.next unanswered⟩

/-! ### What is done with the board -/

/-- The level of the reset line after some deeds. -/
def resetLevel? (acts : List Deed) : Option Bool :=
  (acts.filterMap fun
    | .reset on => some on
    | _ => none).getLast?

theorem resetLevel?_append (acts more : List Deed) :
    resetLevel? (acts ++ more) = (resetLevel? more).or (resetLevel? acts) := by
  rw [resetLevel?, List.filterMap_append, List.getLast?_append]
  rfl

/-- Whatever becomes of a probe, the co-processor is not held in reset afterwards. -/
theorem resetLevel?_probes (timing : Timing) {acts : List Deed} (released : resetLevel? acts = some false)
    (probes : List Probe) : resetLevel? (acts ++ probes.flatMap (Probe.deeds timing)) = some false := by
  induction probes generalizing acts with
  | nil => simpa using released
  | cons p probes ih =>
    rw [List.flatMap_cons, ← List.append_assoc]
    apply ih
    rw [resetLevel?_append, released]
    by_cases faulty : p = .silent true
    · rw [Probe.deeds, if_pos faulty]
      rfl
    · rw [Probe.deeds, if_neg faulty]
      rfl

theorem acts_pulsed (timing : Timing) (r : Recorded σ) : (pulsed timing r).acts = r.acts ++ pulse timing := by
  simp [Recorded.acts, Recorded.history, pulsed, pulse, Board.delay, Board.setReset, Recorded.note]

theorem Probed.acts {timing : Timing} {b c : Recorded σ} {p : Probe} (probed : Probed timing b p c) :
    c.acts = b.acts ++ p.deeds timing := by
  have sent := Recorded.acts_converse timing.probeTimeout (At.commandLine probeCommand) b
  cases probed with
  | answered came =>
    rw [came] at sent
    exact sent
  | @silent c d fault came taken =>
    rw [came] at sent
    have same : d.acts = c.acts := congrArg (fun taken => taken.2.acts) taken.symm
    cases fault with
    | false => exact same.trans sent
    | true =>
      rw [if_pos rfl, acts_pulsed, same, sent, List.append_assoc]
      rfl
  | refused came said =>
    rw [came] at sent
    exact sent

theorem Course.acts {timing : Timing} {b c : Recorded σ} {probes : List Probe} (course : Course timing b probes c) :
    c.acts = b.acts ++ probes.flatMap (Probe.deeds timing) := by
  induction course with
  | done b => simp
  | next first rest ih => rw [ih, first.acts, List.flatMap_cons, List.append_assoc]

/-! ### Faults and resets -/

/-- The faults that a bench has seen and not told yet: one at most. -/
def latched (r : Recorded Bench) : Nat := r.board.modem.fault.toNat

theorem converse_latched (timeout : Duration) (data : Bytes) (r : Recorded Bench) :
    (At.converse timeout data r).2.board.modem.script = r.board.modem.script.tail ∧
      latched (At.converse timeout data r).2 ≤ latched r + r.board.reply.fault.toNat := by
  obtain ⟨waiting, now, moved⟩ := Recorded.converse_left timeout data r
  have either : ∀ a b : Bool, (a || b).toNat ≤ a.toNat + b.toNat := by decide
  rw [latched, moved]
  exact ⟨rfl, either _ _⟩

theorem takeFault_latched {r after : Recorded Bench} {fault : Bool} (taken : Board.takeFault .modem r = (fault, after)) :
    fault.toNat = latched r ∧ latched after = 0 ∧ after.board.modem.script = r.board.modem.script := by
  obtain ⟨rfl, rfl⟩ := Prod.mk.inj taken
  exact ⟨rfl, rfl, rfl⟩

/-- A reset takes a fault that was seen before or came with the answer. -/
theorem Probed.faults {timing : Timing} {b c : Recorded Bench} {p : Probe} (probed : Probed timing b p c) :
    c.board.modem.script = b.board.modem.script.tail ∧
      [p].count (.silent true) + latched c ≤ latched b + b.board.reply.fault.toNat := by
  obtain ⟨script, seen⟩ := converse_latched timing.probeTimeout (At.commandLine probeCommand) b
  cases probed with
  | answered came =>
    rw [came] at script seen
    exact ⟨script, by simpa using seen⟩
  | @silent c d fault came taken =>
    rw [came] at script seen
    obtain ⟨told, forgotten, same⟩ := takeFault_latched taken
    cases fault with
    | false => exact ⟨same.trans script, by simp [forgotten]⟩
    | true =>
      have seen : latched c ≤ latched b + b.board.reply.fault.toNat := seen
      have forgotten : latched (pulsed timing d) = 0 := forgotten
      refine ⟨same.trans script, ?_⟩
      simp only [Bool.toNat_true] at told
      simp only [if_pos, forgotten, List.count_singleton_self]
      omega
  | refused came said =>
    rw [came] at script seen
    exact ⟨script, by simpa using seen⟩

/-- The co-processor is reset at most once for each fault. -/
theorem Course.faults {timing : Timing} {b c : Recorded Bench} {probes : List Probe} (course : Course timing b probes c) :
    probes.count (.silent true) + latched c ≤
      latched b + (b.board.modem.script.take probes.length).countP Reply.fault := by
  induction course with
  | done b => simp
  | @next b c d p probes first rest ih =>
    obtain ⟨script, seen⟩ := first.faults
    have faults : b.board.reply.fault.toNat + (b.board.modem.script.tail.take probes.length).countP Reply.fault =
        (b.board.modem.script.take (probes.length + 1)).countP Reply.fault := by
      rw [Bench.reply]
      cases b.board.modem.script with
      | nil => simp
      | cons reply script => cases fault : reply.fault <;> simp [fault, Nat.add_comm]
    have parts : ([p] ++ probes).count (.silent true) = [p].count (.silent true) + probes.count (.silent true) :=
      List.count_append
    rw [List.singleton_append] at parts
    rw [script] at ih
    rw [parts, List.length_cons]
    omega

/-- Bringing up powers and resets the co-processor and then sends probes until one is answered,
    as many as the timing allows and at least one. Behind a probe comes one more reset just if
    nothing came in time and a fault had been seen, which is thereby told and forgotten. Nothing
    else is done with the board, and what is known of the co-processor stays. -/
theorem bringUp_course :
    (∀ s : Session (Recorded σ),
      let limit := max 1 s.timing.attempts.toNat
      let t := s.bringUp.2
      ∃ probes, Course s.timing (pulsed s.timing (Board.setReset false (Board.setEnable true s.board))) probes t.board ∧
        Ends limit limit probes s.bringUp.1 t.phase ∧
        t.board.acts = s.board.acts ++ [.enable true, .reset false] ++ pulse s.timing ++
          probes.flatMap (Probe.deeds s.timing) ∧
        resetLevel? t.board.acts = some false ∧ t.state = s.state) ∧
    ∀ (timing : Timing) (b c : Recorded Bench) (probes : List Probe), Course timing b probes c →
      probes.count (.silent true) + latched c ≤
        latched b + (b.board.modem.script.take probes.length).countP Reply.fault := by
  refine ⟨?_, fun timing b c probes course => course.faults⟩
  intro s limit t
  let armed : Recorded σ := Board.setReset false (Board.setEnable true s.board)
  let waiting : Session (Recorded σ) :=
    { ({ s.onBoard fun _ => armed with phase := .armed } : Session (Recorded σ)).resetPulse with phase := .awaitingEcho }
  have run : s.bringUp = waiting.probe limit limit := rfl
  obtain ⟨probes, course, ends⟩ := probe_course limit limit waiting
  rw [← run] at course ends
  have armed_acts : armed.acts = s.board.acts ++ [.enable true, .reset false] := by
    simp [armed, Recorded.acts, Recorded.history, Board.setReset, Board.setEnable, Recorded.note]
  have acts : t.board.acts = s.board.acts ++ [.enable true, .reset false] ++ pulse s.timing ++
      probes.flatMap (Probe.deeds s.timing) := by
    rw [← armed_acts, ← acts_pulsed]
    exact course.acts
  refine ⟨probes, course, ends, acts, ?_, probe_state _ _ _⟩
  rw [acts]
  refine resetLevel?_probes s.timing ?_ probes
  rw [resetLevel?_append]
  rfl

/-- A co-processor with a fault to tell that is silent first, then refuses and then answers. -/
def hesitant : Session (Recorded Bench) where
  channel := { board := { board := { modem := {
    script := [{}, { rx := Utf8.encode "ERROR\r\n" }, { rx := Utf8.encode "OK\r\n" }], fault := true } } } }
  timing := { attempts := 3 }

/-- Its board after the first reset, and after the reset that the silence is followed by. -/
def resetOnce : Recorded Bench := pulsed hesitant.timing (Board.setReset false (Board.setEnable true hesitant.board))

def resetTwice : Recorded Bench :=
  pulsed hesitant.timing
    (Board.takeFault .modem (At.converse hesitant.timing.probeTimeout (At.commandLine probeCommand) resetOnce).2).2

/-- The silence takes the fault and is followed by the only further reset; the refused probe is not. -/
theorem bringUp_course_hesitant :
    (∃ probes, Course hesitant.timing resetOnce probes hesitant.bringUp.2.board ∧ Ends 3 3 probes (.ok ()) .ready ∧
      hesitant.bringUp.2.board.acts = [.enable true, .reset false] ++ pulse hesitant.timing ++
        probes.flatMap (Probe.deeds hesitant.timing)) ∧
    (∃ refused, Course hesitant.timing resetOnce [.silent true, .refused] refused ∧ latched refused = 0) ∧
    hesitant.bringUp.2.board.acts = [.enable true, .reset false] ++ pulse hesitant.timing ++
      [.silent true, .refused, .answered].flatMap (Probe.deeds hesitant.timing) := by
  obtain ⟨courses, faults⟩ := bringUp_course (σ := Bench)
  refine ⟨?_, ?_, by decide +kernel⟩
  · obtain ⟨probes, course, ends, acts, -⟩ := courses hesitant
    have result : hesitant.bringUp.1 = .ok () := by decide +kernel
    have phase : hesitant.bringUp.2.phase = .ready := by decide +kernel
    rw [result, phase] at ends
    exact ⟨probes, course, ends, acts⟩
  · have silent : Probed hesitant.timing resetOnce (.silent true) resetTwice :=
      .silent (Prod.ext (by decide +kernel) rfl) (Prod.ext (by decide +kernel) rfl)
    have refusal : (At.converse hesitant.timing.probeTimeout (At.commandLine probeCommand) resetTwice).1 =
        .error (.deviceReported ⟨Utf8.encode "ERROR\r\n"⟩) := by decide +kernel
    have seen : latched resetOnce + (resetOnce.board.modem.script.take 2).countP Reply.fault = 1 := by decide +kernel
    cases came : At.converse hesitant.timing.probeTimeout (At.commandLine probeCommand) resetTwice with
    | mk result after =>
      rw [came] at refusal
      obtain rfl : result = .error (.deviceReported ⟨Utf8.encode "ERROR\r\n"⟩) := refusal
      have course := Course.next silent (.next (.refused came rfl) (.done after))
      have taken : 1 + latched after ≤ latched resetOnce + _ := faults _ _ _ _ course
      exact ⟨after, course, Nat.le_zero.mp (Nat.le_of_add_le_add_left (taken.trans seen.le))⟩

end Session
end AirMonitor
