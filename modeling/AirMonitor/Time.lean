/-!
Time. An instant is a 64-bit count of microseconds since boot, and every sum that
leaves its range stops at the nearest end (`Instant.clamp`). A duration is a number
of nanoseconds and never negative.
-/
namespace AirMonitor

/-- A span of time in nanoseconds. -/
structure Duration where
  nanos : Nat
deriving DecidableEq, Repr

namespace Duration

def micros (d : Duration) : Nat := d.nanos / 1000
def millis (d : Duration) : Nat := d.nanos / 1000000
def secs (d : Duration) : Nat := d.nanos / 1000000000
/-- The nanoseconds past the last whole second. -/
def subsecNanos (d : Duration) : Nat := d.nanos % 1000000000

def ofMicros (us : Nat) : Duration := ⟨us * 1000⟩
def ofMillis (ms : Nat) : Duration := ⟨ms * 1000000⟩
def ofSecs (s : Nat) : Duration := ⟨s * 1000000000⟩

@[simp] theorem micros_ofMicros (us : Nat) : (ofMicros us).micros = us := by simp [micros, ofMicros]

end Duration

/-- A moment in microseconds since boot. -/
structure Instant where
  us : Int64
deriving DecidableEq, Repr

namespace Instant

def toInt (t : Instant) : Int := t.us.toInt

/-- The last moment that can be told. -/
def last : Instant := ⟨Int64.maxValue⟩
def boot : Instant := ⟨0⟩

/-- The moment nearest to a count of microseconds. -/
def clamp (us : Int) : Instant := ⟨Int64.ofInt (max (-0x8000000000000000) (min us 0x7fffffffffffffff))⟩

theorem toInt_lower (t : Instant) : -0x8000000000000000 ≤ t.toInt := Int64.le_toInt t.us
theorem toInt_upper (t : Instant) : t.toInt ≤ 0x7fffffffffffffff := Int64.toInt_le t.us

theorem toInt_clamp (us : Int) : (clamp us).toInt = max (-0x8000000000000000) (min us 0x7fffffffffffffff) :=
  Int64.toInt_ofInt_of_le (by omega) (by omega)

theorem ext_toInt {s t : Instant} (same : s.toInt = t.toInt) : s = t := by
  cases s; cases t; congr; exact Int64.toInt_inj.mp same

instance : LE Instant := ⟨fun s t => s.toInt ≤ t.toInt⟩
instance : LT Instant := ⟨fun s t => s.toInt < t.toInt⟩
instance (s t : Instant) : Decidable (s ≤ t) := inferInstanceAs (Decidable (s.toInt ≤ t.toInt))
instance (s t : Instant) : Decidable (s < t) := inferInstanceAs (Decidable (s.toInt < t.toInt))

/-- The later of two moments. -/
def latest (s t : Instant) : Instant := if s ≤ t then t else s

/-- The moment a number of microseconds later. -/
def later (t : Instant) (us : Nat) : Instant := clamp (t.toInt + us)

/-- The moment after a duration. The duration counts as at most 2^63 - 1 microseconds. -/
def add (t : Instant) (d : Duration) : Instant := t.later (min d.micros 0x7fffffffffffffff)

instance : HAdd Instant Duration Instant := ⟨add⟩

/-- The time that has passed since an earlier moment, none if it is yet to come. -/
def since (t earlier : Instant) : Duration := .ofMicros (clamp (t.toInt - earlier.toInt)).toInt.toNat

def ofMillis (ms : Int) : Instant := clamp (ms * 1000)

/-- Whole milliseconds, rounded toward boot. -/
def toMillis (t : Instant) : Int := t.toInt.tdiv 1000

end Instant
end AirMonitor
