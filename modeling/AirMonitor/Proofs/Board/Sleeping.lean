import AirMonitor.Board.Bench
import AirMonitor.Board.Recorded
import Mathlib.Algebra.GroupWithZero.Nat

/-!
Sleeping. A sleep whose rounds nothing limits (`Board.Sleeps`) ends on every board whose delays
advance its clock: every round leaves a microsecond less, and as many rounds are allowed as there
are microseconds left (`Board.sleepRounds_sleeps`). It ends at its deadline or behind it, and
more rounds would make no difference (`Board.sleepUntil_ends`). Where every delay takes just the
time that was asked for it ends at the deadline, and its delays are the longest there are, the
last one apart (`Board.sleepUntil_exact`).
-/
namespace AirMonitor
namespace Board
variable {σ : Type} [Board σ] {deadline : Instant} {s t : σ} {delays : List UInt32}

/-- Every delay advances the clock, until the last moment that can be told. -/
def Advances (σ : Type) [Board σ] : Prop :=
  ∀ (us : UInt32) (s : σ), us ≠ 0 → now s < .last → now s < now (delay us s)

/-- Every delay takes the time that was asked for, until the last moment that can be told. -/
def KeepsTime (σ : Type) [Board σ] : Prop := ∀ (us : UInt32) (s : σ), (now s).later us.toNat ≤ now (delay us s)

theorem KeepsTime.advances (keeps_time : KeepsTime σ) : Advances σ := by
  intro us s moves early
  have some_time : us.toNat ≠ 0 := fun zero => moves (UInt32.toNat_inj.mp zero)
  have behind : ((now s).later us.toNat).toInt ≤ (now (delay us s)).toInt := keeps_time us s
  have early' : (now s).toInt < 0x7fffffffffffffff := early
  rw [Instant.later, Instant.toInt_clamp] at behind
  show (now s).toInt < (now (delay us s)).toInt
  omega

/-- Every delay takes the time that was asked for and no more, until the last moment that can be told. -/
def Punctual (σ : Type) [Board σ] : Prop := ∀ (us : UInt32) (s : σ), now (delay us s) = (now s).later us.toNat

theorem Punctual.keepsTime (punctual : Punctual σ) : KeepsTime σ := by
  intro us s
  rw [punctual us s]
  exact Int.le_refl _

/-- The time to a moment, if it is yet to come. -/
theorem micros_since (t earlier : Instant) :
    (t.since earlier).micros = (min (t.toInt - earlier.toInt) 0x7fffffffffffffff).toNat := by
  rw [Instant.since, Duration.micros_ofMicros, Instant.toInt_clamp]
  omega

theorem micros_since_eq_zero {t earlier : Instant} : (t.since earlier).micros = 0 ↔ t ≤ earlier := by
  have left := micros_since t earlier
  show _ ↔ t.toInt ≤ earlier.toInt
  omega

/-! ### Rounds without a limit -/

/-- The delay that a sleep asks for next. -/
def nextDelay (deadline : Instant) (s : σ) : UInt32 :=
  UInt32.ofNat (min (deadline.since (now s)).micros longestDelay)

/-- A sleep that goes on until its deadline, and the delays that it asks for. -/
inductive Sleeps (deadline : Instant) : σ → List UInt32 → σ → Prop
  | reached {s : σ} (none_left : (deadline.since (now s)).micros = 0) : Sleeps deadline s [] s
  | round {s t : σ} {delays : List UInt32} (some_left : (deadline.since (now s)).micros ≠ 0)
      (rest : Sleeps deadline (delay (nextDelay deadline s) s) delays t) :
      Sleeps deadline s (nextDelay deadline s :: delays) t

/-- A delay is as long as the time that is left, as far as delays go. -/
theorem toNat_nextDelay (deadline : Instant) (s : σ) :
    (nextDelay deadline s).toNat = min (deadline.toInt - (now s).toInt).toNat longestDelay := by
  have left := micros_since deadline (now s)
  rw [nextDelay, UInt32.toNat_ofNat', longestDelay]
  omega

/-- The rounds that are allowed are enough. -/
theorem sleepRounds_sleeps (advances : Advances σ) (deadline : Instant) {rounds : Nat} {s : σ}
    (enough : (deadline.toInt - (now s).toInt).toNat ≤ rounds) :
    ∃ delays, Sleeps deadline s delays (sleepRounds deadline rounds s) := by
  induction rounds generalizing s with
  | zero =>
    refine ⟨[], .reached ?_⟩
    have left := micros_since deadline (now s)
    omega
  | succ rounds ih =>
    have left := micros_since deadline (now s)
    rw [sleepRounds]
    by_cases none_left : (deadline.since (now s)).micros = 0
    · rw [if_pos none_left]
      exact ⟨[], .reached none_left⟩
    · rw [if_neg none_left]
      have some_time : nextDelay deadline s ≠ 0 := by
        intro zero
        have values := (toNat_nextDelay deadline s).symm.trans (congrArg UInt32.toNat zero)
        rw [longestDelay, show (0 : UInt32).toNat = 0 from rfl] at values
        omega
      have early : now s < .last := by
        show (now s).toInt < Instant.last.toInt
        have upper := deadline.toInt_upper
        rw [show Instant.last.toInt = 0x7fffffffffffffff from rfl]
        omega
      have later : (now s).toInt < (now (delay (nextDelay deadline s) s)).toInt := advances _ s some_time early
      obtain ⟨delays, rest⟩ := ih (s := delay (nextDelay deadline s) s) (by omega)
      exact ⟨_, .round none_left rest⟩

theorem Sleeps.reaches (sleeps : Sleeps deadline s delays t) : deadline ≤ now t := by
  induction sleeps with
  | reached none_left => exact micros_since_eq_zero.mp none_left
  | round _ _ ih => exact ih

/-- A sleep ends at its deadline or behind it. -/
theorem sleepUntil_reaches (advances : Advances σ) (deadline : Instant) (s : σ) :
    deadline ≤ now (sleepUntil deadline s) := by
  obtain ⟨_, sleeps⟩ := sleepRounds_sleeps advances deadline (Nat.le_refl (deadline.toInt - (now s).toInt).toNat)
  exact sleeps.reaches

/-- At its deadline a sleep makes no more rounds. -/
theorem sleepRounds_past (past : deadline ≤ now s) (rounds : Nat) :
    sleepRounds deadline rounds s = s := by
  cases rounds with
  | zero => rfl
  | succ rounds => rw [sleepRounds, if_pos (micros_since_eq_zero.mpr past)]

theorem sleepRounds_add (deadline : Instant) (rounds more : Nat) (s : σ) :
    sleepRounds deadline (rounds + more) s = sleepRounds deadline more (sleepRounds deadline rounds s) := by
  induction rounds generalizing s with
  | zero => rw [Nat.zero_add, sleepRounds]
  | succ rounds ih =>
    rw [Nat.succ_add, sleepRounds, sleepRounds]
    by_cases none_left : (deadline.since (now s)).micros = 0
    · rw [if_pos none_left, if_pos none_left]
      exact (sleepRounds_past (micros_since_eq_zero.mp none_left) more).symm
    · rw [if_neg none_left, if_neg none_left, ih]

/-- A sleep ends at its deadline or behind it, and it would make no more rounds if it were allowed to. -/
theorem sleepUntil_ends (keeps_time : KeepsTime σ) (deadline : Instant) (s : σ) :
    deadline ≤ now (sleepUntil deadline s) ∧
      ∀ more, sleepRounds deadline ((deadline.toInt - (now s).toInt).toNat + more) s = sleepUntil deadline s := by
  have reached := sleepUntil_reaches keeps_time.advances deadline s
  refine ⟨reached, fun more => ?_⟩
  rw [sleepRounds_add]
  exact sleepRounds_past reached more

/-! ### Delays that are kept -/

/-- Delays that add up to a time, each of them as long as it can be. -/
structure Fills (time : Nat) (delays : List UInt32) : Prop where
  some_time : ∀ us ∈ delays, 1 ≤ us.toNat ∧ us.toNat ≤ longestDelay
  longest : ∀ us ∈ delays.dropLast, us.toNat = longestDelay
  sum : (delays.map UInt32.toNat).sum = time

theorem Fills.cons {time : Nat} {us : UInt32} (fills : Fills (time - us.toNat) delays) (positive : 0 < time)
    (next : us.toNat = min time longestDelay) : Fills time (us :: delays) where
  some_time := by
    intro u member
    rcases List.mem_cons.mp member with rfl | later
    · rw [next, longestDelay]
      omega
    · exact fills.some_time u later
  longest := by
    cases delays with
    | nil => nofun
    | cons v delays =>
      -- There is a delay behind this one, so it did not take all the time that was left.
      have more := (fills.some_time v List.mem_cons_self).1
      have sum := fills.sum
      rw [List.map_cons, List.sum_cons] at sum
      intro u member
      rcases List.mem_cons.mp member with rfl | later
      · omega
      · exact fills.longest u later
  sum := by
    rw [List.map_cons, List.sum_cons, fills.sum]
    omega

/-- A punctual sleep ends at its deadline, and its delays fill the time up to there. -/
theorem Sleeps.exact (sleeps : Sleeps deadline s delays t) (punctual : Punctual σ) :
    (now t).toInt = max (now s).toInt deadline.toInt ∧ Fills (deadline.toInt - (now s).toInt).toNat delays := by
  induction sleeps with
  | @reached s none_left =>
    have left := micros_since deadline (now s)
    refine ⟨by omega, nofun, nofun, ?_⟩
    rw [List.map_nil, List.sum_nil]
    omega
  | @round s t delays some_left rest ih =>
    obtain ⟨ends, fills⟩ := ih
    have left := micros_since deadline (now s)
    have next := toNat_nextDelay deadline s
    have moved : (now (delay (nextDelay deadline s) s)).toInt = (now s).toInt + (nextDelay deadline s).toNat := by
      have lower := (now s).toInt_lower
      have upper := deadline.toInt_upper
      rw [punctual, Instant.later, Instant.toInt_clamp]
      omega
    have shorter : (deadline.toInt - (now (delay (nextDelay deadline s) s)).toInt).toNat =
        (deadline.toInt - (now s).toInt).toNat - (nextDelay deadline s).toNat := by omega
    rw [shorter] at fills
    exact ⟨by omega, fills.cons (by omega) next⟩

end Board

namespace Recorded
variable {σ : Type} [Board σ] {deadline : Instant} {r t : Recorded σ} {delays : List UInt32}

/-- What a sleep does with a board are its delays. -/
theorem history_sleeps (sleeps : Board.Sleeps deadline r delays t) :
    t.history.map Prod.snd = r.history.map Prod.snd ++ delays.map Deed.delay := by
  induction sleeps with
  | reached none_left => exact (List.append_nil _).symm
  | @round r t delays some_left rest ih =>
    rw [ih, List.map_cons]
    simp [history, Board.delay, note]

end Recorded

namespace Board
variable {σ : Type} [Board σ]

/-- On a punctual clock a sleep that nothing limits ends as the limited one does: at its
    deadline, or at once if that has passed. Nothing is done with the board but its delays.
    They are a microsecond or more, all but the last are the longest there are, and they add
    up to the time that was left, also where this is more than a clock can tell. -/
theorem sleepUntil_exact (punctual : Punctual σ) (deadline : Instant) (r : Recorded σ) :
    ∃ delays : List UInt32, Sleeps deadline r delays (sleepUntil deadline r) ∧
      (sleepUntil deadline r).history.map Prod.snd = r.history.map Prod.snd ++ delays.map Deed.delay ∧
      (now (sleepUntil deadline r)).toInt = max (now r).toInt deadline.toInt ∧
      (∀ us ∈ delays, 1 ≤ us.toNat ∧ us.toNat ≤ 4294967295) ∧
      (∀ us ∈ delays.dropLast, us.toNat = 4294967295) ∧
      ((delays.map UInt32.toNat).sum : Int) = max 0 (deadline.toInt - (now r).toInt) := by
  have recorded : Punctual (Recorded σ) := fun us r => punctual us r.board
  have enough := Nat.le_refl (deadline.toInt - (now r).toInt).toNat
  obtain ⟨delays, sleeps⟩ := sleepRounds_sleeps recorded.keepsTime.advances deadline enough
  obtain ⟨ends, fills⟩ := sleeps.exact recorded
  refine ⟨delays, sleeps, Recorded.history_sleeps sleeps, ends, fills.some_time, fills.longest, ?_⟩
  rw [fills.sum]
  omega

end Board

/-- The clock of a bench shows what was asked of it. -/
theorem Bench.punctual : Board.Punctual Bench := fun _ _ => rfl

theorem Bench.keepsTime : Board.KeepsTime Bench := Bench.punctual.keepsTime

/-- The longest of all sleeps takes twice the time that a clock can tell. -/
theorem Board.sleepUntil_exact_longest :
    let r : Recorded Bench := { board := { now := ⟨Int64.minValue⟩ } }
    ∃ delays : List UInt32, Board.Sleeps .last r delays (Board.sleepUntil .last r) ∧
      (Board.now (Board.sleepUntil .last r)).toInt = 9223372036854775807 ∧
      (∀ us ∈ delays.dropLast, us.toNat = 4294967295) ∧
      (delays.map UInt32.toNat).sum = 18446744073709551615 := by
  intro r
  obtain ⟨delays, sleeps, -, ends, -, longest, sum⟩ := Board.sleepUntil_exact Bench.punctual .last r
  have start : (Board.now r).toInt = -9223372036854775808 := by decide
  have deadline : Instant.last.toInt = 9223372036854775807 := by decide
  rw [start, deadline] at ends sum
  exact ⟨delays, sleeps, ends, longest, by omega⟩

end AirMonitor
