import AirMonitor.Sync.Wait

/-!
A counting semaphore. Its permits are a 64-bit word.
-/
namespace AirMonitor

structure Semaphore where
  permits : UInt64
deriving DecidableEq, Repr

namespace Semaphore

/-- Takes one permit, if there is one. -/
def acquire? (s : Semaphore) : Option Semaphore :=
  if s.permits = 0 then none else some ⟨s.permits - 1⟩

/-- Gives one permit back. -/
def release (s : Semaphore) : Semaphore := ⟨s.permits + 1⟩

/-- Takes one permit, running a hook whenever there is none. -/
def acquireWith (hooks : List (Semaphore → Semaphore)) (s : Semaphore) : Waited Semaphore Unit :=
  wait (fun s => s.acquire?.map ((), ·)) hooks s

def available (s : Semaphore) : Nat := s.permits.toNat

theorem available_acquire {s rest : Semaphore} (acquired : s.acquire? = some rest) :
    rest.available + 1 = s.available := by
  unfold acquire? at acquired
  split at acquired
  · cases acquired
  · next some_left =>
    obtain rfl := Option.some.inj acquired
    have positive : s.permits.toNat ≠ 0 := fun zero => some_left (UInt64.toNat_inj.mp zero)
    have := s.permits.toNat_lt
    rw [available, available, UInt64.toNat_sub, show (1 : UInt64).toNat = 1 from rfl]
    omega

end Semaphore
end AirMonitor
