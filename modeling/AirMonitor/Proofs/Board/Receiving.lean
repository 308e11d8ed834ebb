import AirMonitor.Board.Bench
import AirMonitor.Board.Recorded

/-!
Receiving from the co-processor on a recorded bench. All that a receipt changes is the
queue and the clock (`Bench.left`), and as long as bytes come in time the moment until
which they may come stays the same (`Instant.latest_latest`).
-/
namespace AirMonitor

namespace Instant

theorem toInt_latest (s t : Instant) : (s.latest t).toInt = max s.toInt t.toInt := by
  unfold latest
  by_cases order : s ≤ t
  · rw [if_pos order, Int.max_eq_right order]
  · rw [if_neg order, Int.max_eq_left (Int.le_of_lt (Int.not_le.mp order))]

theorem le_latest (s t : Instant) : t ≤ s.latest t := by
  show t.toInt ≤ (s.latest t).toInt
  rw [toInt_latest]
  exact Int.le_max_right _ _

/-- A moment that is not too late does not move a limit. -/
theorem latest_latest {s t limit : Instant} (early : t ≤ s.latest limit) : (s.latest t).latest limit = s.latest limit := by
  apply ext_toInt
  have early : t.toInt ≤ (s.latest limit).toInt := early
  rw [toInt_latest] at early
  rw [toInt_latest, toInt_latest, toInt_latest]
  omega

theorem latest_eq_left {s t : Instant} (passed : t ≤ s) : s.latest t = s := by
  apply ext_toInt
  rw [toInt_latest, Int.max_eq_left passed]

end Instant

namespace Bench
variable {b : Bench} {waiting : List (Instant × UInt8)} {deadline : Instant}

/-- The bench with another queue of the co-processor at another time. -/
def left (waiting : List (Instant × UInt8)) (now : Instant) (b : Bench) : Bench :=
  { b with modem := { b.modem with waiting }, now }

@[simp] theorem left_left (waiting waiting' : List (Instant × UInt8)) (now now' : Instant) (b : Bench) :
    (b.left waiting now).left waiting' now' = b.left waiting' now' := rfl

@[simp] theorem waiting_left (waiting : List (Instant × UInt8)) (now : Instant) (b : Bench) :
    (b.left waiting now).modem.waiting = waiting := rfl

@[simp] theorem now_left (waiting : List (Instant × UInt8)) (now : Instant) (b : Bench) :
    (b.left waiting now).now = now := rfl

/-- Nothing is received that comes too late. -/
theorem receive_none (late : ∀ first ∈ b.modem.waiting.head?, ¬ first.1 ≤ b.now.latest deadline) :
    Board.receive .modem deadline b = (none, b.left b.modem.waiting (b.now.latest deadline)) := by
  obtain ⟨now, ⟨script, waiting, fault⟩, console⟩ := b
  show Bench.receive .modem deadline _ = _
  cases waiting with
  | nil => rfl
  | cons first rest =>
    have late : ¬ first.1 ≤ now.latest deadline := late first rfl
    simp [receive, link, late, left]

theorem receive_some {arrival : Instant} {byte : UInt8} (first : b.modem.waiting = (arrival, byte) :: waiting)
    (early : arrival ≤ b.now.latest deadline) :
    Board.receive .modem deadline b = (some byte, b.left waiting (b.now.latest arrival)) := by
  show Bench.receive .modem deadline b = _
  simp [receive, link, first, early, setLink, left]

/-- Bytes that have arrived are discarded, as many as one discard drops, and nothing else happens. -/
theorem discardUpTo_backlog {backlog rest : List (Instant × UInt8)} {now : Instant} {limit : Nat} (booted : .boot ≤ now)
    (fits : backlog.length ≤ limit) (arrived : ∀ byte ∈ backlog, byte.1 ≤ now) (fresh : ∀ first ∈ rest.head?, now < first.1) :
    Board.discardUpTo .modem limit (b.left (backlog ++ rest) now) = (backlog.length, b.left rest now) := by
  have limit_now : now.latest .boot = now := Instant.latest_eq_left booted
  induction backlog generalizing limit with
  | nil =>
    cases limit with
    | zero => rfl
    | succ limit =>
      have late : ∀ first ∈ (b.left rest now).modem.waiting.head?, ¬ first.1 ≤ (b.left rest now).now.latest .boot := by
        intro first member
        rw [now_left, limit_now]
        exact Int.not_le.mpr (fresh first member)
      rw [List.nil_append, Board.discardUpTo, receive_none late, now_left, limit_now]
      rfl
  | cons byte backlog ih =>
    obtain ⟨limit, rfl⟩ : ∃ fewer, limit = fewer + 1 := ⟨limit - 1, by simp only [List.length_cons] at fits; omega⟩
    have early : byte.1 ≤ now := arrived byte (by simp)
    have received : Board.receive .modem .boot (b.left (byte :: (backlog ++ rest)) now) =
        (some byte.2, b.left (backlog ++ rest) (now.latest byte.1)) :=
      receive_some rfl (by rw [now_left, limit_now]; exact early)
    rw [Instant.latest_eq_left early] at received
    rw [List.cons_append, Board.discardUpTo, received]
    simp only [ih (Nat.le_of_succ_le_succ fits) (fun byte member => arrived byte (List.mem_cons_of_mem _ member)),
      List.length_cons]

/-- Receiving moves the queue and the clock, and nothing else. -/
theorem receive_left (deadline : Instant) (b : Bench) : ∃ waiting now, (Board.receive .modem deadline b).2 = b.left waiting now := by
  show ∃ waiting now, (Bench.receive .modem deadline b).2 = b.left waiting now
  obtain ⟨now, ⟨script, waiting, fault⟩, console⟩ := b
  cases waiting with
  | nil => exact ⟨_, _, rfl⟩
  | cons first rest =>
    by_cases early : first.1 ≤ now.latest deadline
    · exact ⟨rest, now.latest first.1, by simp [receive, link, early, setLink, left]⟩
    · exact ⟨first :: rest, now.latest deadline, by simp [receive, link, early, left]⟩

theorem discard_left (b : Bench) : ∃ waiting now, (Board.discard .modem b).2 = b.left waiting now := by
  unfold Board.discard
  generalize Board.discardLimit = limit
  induction limit generalizing b with
  | zero => exact ⟨b.modem.waiting, b.now, rfl⟩
  | succ limit ih =>
    obtain ⟨waiting, now, moved⟩ := receive_left .boot b
    rw [Board.discardUpTo]
    cases received : Board.receive .modem .boot b with
    | mk byte c =>
      rw [received] at moved
      obtain rfl : c = b.left waiting now := moved
      cases byte with
      | none => exact ⟨waiting, now, rfl⟩
      | some byte =>
        obtain ⟨waiting', now', moved'⟩ := ih (b.left waiting now)
        exact ⟨waiting', now', moved'⟩

end Bench

namespace Recorded
variable {σ : Type} [Board σ]

/-- Receiving is not noted. -/
theorem receive_eq (uart : Uart) (deadline : Instant) (r : Recorded σ) :
    Board.receive uart deadline r =
      ((Board.receive uart deadline r.board).1, ⟨(Board.receive uart deadline r.board).2, r.deeds⟩) := rfl

theorem discard_eq (uart : Uart) (r : Recorded σ) :
    Board.discard uart r = ((Board.discard uart r.board).1, ⟨(Board.discard uart r.board).2, r.deeds⟩) := by
  suffices all : ∀ limit (r : Recorded σ), Board.discardUpTo uart limit r =
      ((Board.discardUpTo uart limit r.board).1, ⟨(Board.discardUpTo uart limit r.board).2, r.deeds⟩) from all _ r
  intro limit
  induction limit with
  | zero => exact fun r => rfl
  | succ limit ih =>
    intro r
    rw [Board.discardUpTo, Board.discardUpTo, receive_eq]
    cases Board.receive uart .boot r.board with
    | mk byte board =>
      cases byte with
      | none => rfl
      | some byte => simp only [ih]

end Recorded
end AirMonitor
