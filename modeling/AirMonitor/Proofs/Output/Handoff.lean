import AirMonitor.Output.Ring
import AirMonitor.Proofs.Window

/-!
The hand-off ring as a list, oldest handle first: what its slots hold from the first
handle that was not popped to the last one that was pushed.
-/
namespace AirMonitor.HandoffRing
open Window
variable {Q : Nat}

/-- Rings have a number of slots that divides 2^32 and is smaller. -/
structure Fits (Q : Nat) : Prop where
  divides : Q ∣ 4294967296
  small : Q < 4294967296

theorem fits_of_pow {k : Nat} (small : 2 ^ k < 4294967296) : Fits (2 ^ k) := by
  have exponent : k < 32 := (Nat.pow_lt_pow_iff_right (by omega : 1 < 2)).mp (by simpa using small)
  exact ⟨Nat.pow_dvd_pow 2 (by omega : k ≤ 32), small⟩

/-- The handles in the ring, the oldest first. -/
def toList (r : HandoffRing Q) : List UInt16 :=
  (List.range r.length).map fun i => r.slots[slot Q (r.popped + .ofNat i)]?.getD 0

@[simp] theorem length_toList (r : HandoffRing Q) : r.toList.length = r.length := by simp [toList]

theorem toList_empty : ({} : HandoffRing Q).toList = [] := by
  rw [← List.length_eq_zero_iff, length_toList]
  simp [length]

theorem toList_eq (r : HandoffRing Q) : r.toList = window r.slots 0 r.popped r.length := rfl

theorem pushed_eq (r : HandoffRing Q) : r.popped + .ofNat r.length = r.pushed := add_distance r.pushed r.popped

theorem push?_full {r : HandoffRing Q} (full : Q ≤ r.length) (handle : UInt16) : r.push? handle = none := by
  simp [push?, full]

/-- A handle is added behind the others. -/
theorem toList_push (fits : Fits Q) {r : HandoffRing Q} (room : r.length < Q) (handle : UInt16) :
    ∃ s, r.push? handle = some s ∧ s.toList = r.toList ++ [handle] := by
  refine ⟨_, if_neg (by omega), ?_⟩
  set s : HandoffRing Q := { r with slots := r.slots.setIfInBounds (slot Q r.pushed) handle, pushed := r.pushed + 1 }
  have small := fits.small
  have longer : s.length = r.length + 1 := distance_add_one (by show r.length + 1 < _; omega)
  rw [toList_eq, longer]
  exact window_push fits.divides room (pushed_eq r) handle

theorem pop?_empty {r : HandoffRing Q} (empty : r.toList = []) : r.pop? = none := by
  have none_left : (r.pushed - r.popped).toNat = 0 := by
    have count := congrArg List.length empty
    rwa [length_toList] at count
  simp [pop?, distance_eq_zero.mp none_left]

/-- The oldest handle is taken. -/
theorem toList_pop {r : HandoffRing Q} {handle : UInt16} {rest : List UInt16} (content : r.toList = handle :: rest) :
    ∃ s, r.pop? = some (handle, s) ∧ s.toList = rest := by
  have count : (r.pushed - r.popped).toNat = rest.length + 1 := by
    have lengths := congrArg List.length content
    rwa [length_toList] at lengths
  have differ : r.popped ≠ r.pushed := by
    intro same
    rw [distance_eq_zero.mpr same] at count
    cases count
  have shorter : (r.pushed - (r.popped + 1)).toNat = rest.length := distance_sub_one count
  rw [toList_eq, length, count, window_succ] at content
  obtain ⟨first, others⟩ := List.cons.inj content
  refine ⟨{ r with popped := r.popped + 1 }, ?_, ?_⟩
  · simp [pop?, differ, slot, first]
  · rw [toList_eq, length, shorter]
    exact others

end AirMonitor.HandoffRing
