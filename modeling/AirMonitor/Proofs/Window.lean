import Mathlib.Algebra.Order.Group.Nat
import Mathlib.Data.Nat.ModEq

/-!
Rings whose indices are 32-bit words that wrap around. A window is what the slots hold
from one index on (`window`). Wrapping does no harm because the number of slots divides
2^32: the slot of an index and that of the number it stands for are the same
(`slot_add`), so different places of a window have different slots (`slot_ne`).
-/
namespace AirMonitor.Window
variable {α : Type} {N : Nat}

/-! ### Indices -/

theorem add_distance (ahead behind : UInt32) : behind + .ofNat (ahead - behind).toNat = ahead := by
  rw [UInt32.ofNat_toNat, UInt32.add_comm, UInt32.sub_add_cancel]

theorem distance_add_one {ahead behind : UInt32} (room : (ahead - behind).toNat + 1 < 4294967296) :
    (ahead + 1 - behind).toNat = (ahead - behind).toNat + 1 := by
  rw [UInt32.toNat_sub] at room ⊢
  rw [UInt32.toNat_sub, UInt32.toNat_add, show (1 : UInt32).toNat = 1 from rfl]
  have := ahead.toNat_lt
  have := behind.toNat_lt
  omega

theorem distance_sub_one {ahead behind : UInt32} {n : Nat} (distance : (ahead - behind).toNat = n + 1) :
    (ahead - (behind + 1)).toNat = n := by
  rw [UInt32.toNat_sub] at distance ⊢
  rw [UInt32.toNat_add, show (1 : UInt32).toNat = 1 from rfl]
  have := ahead.toNat_lt
  have := behind.toNat_lt
  omega

theorem distance_eq_zero {ahead behind : UInt32} : (ahead - behind).toNat = 0 ↔ behind = ahead := by
  constructor
  · intro none_left
    apply UInt32.toNat_inj.mp
    rw [UInt32.toNat_sub] at none_left
    have := ahead.toNat_lt
    have := behind.toNat_lt
    omega
  · rintro rfl
    rw [UInt32.sub_self]
    rfl

theorem add_ofNat_succ (index : UInt32) (i : Nat) : index + .ofNat (i + 1) = index + 1 + .ofNat i := by
  rw [UInt32.add_assoc, Nat.add_comm i 1, UInt32.ofNat_add]
  rfl

theorem slot_add (divides : N ∣ 4294967296) (index : UInt32) (i : Nat) :
    (index + .ofNat i).toNat % N = (index.toNat + i) % N := by
  have wraps : (index + .ofNat i).toNat = (index.toNat + i) % 4294967296 := by
    rw [UInt32.toNat_add, UInt32.toNat_ofNat']
    omega
  rw [wraps, Nat.mod_mod_of_dvd _ divides]

/-- Different places of a window have different slots. -/
theorem slot_ne (divides : N ∣ 4294967296) (index : UInt32) {i j : Nat} (less : i < j) (near : j < i + N) :
    (index + .ofNat i).toNat % N ≠ (index + .ofNat j).toNat % N := by
  rw [slot_add divides, slot_add divides]
  intro same
  have apart : (index.toNat + i) ≡ (index.toNat + j) [MOD N] := same
  have reaches : N ∣ j - i := by
    have difference := (Nat.modEq_iff_dvd' (by omega)).mp apart
    rwa [Nat.add_sub_add_left] at difference
  have far := Nat.le_of_dvd (by omega) reaches
  omega

/-! ### Windows -/

/-- What `count` slots hold from an index on. -/
def window (slots : Vector α N) (blank : α) (index : UInt32) (count : Nat) : List α :=
  (List.range count).map fun i => slots[(index + .ofNat i).toNat % N]?.getD blank

variable {slots : Vector α N} {blank : α} {index : UInt32} {count : Nat}

@[simp] theorem length_window : (window slots blank index count).length = count := by simp [window]

theorem window_succ : window slots blank index (count + 1) =
    slots[index.toNat % N]?.getD blank :: window slots blank (index + 1) count := by
  rw [window, List.range_succ_eq_map, List.map_cons, List.map_map, show index + .ofNat 0 = index from UInt32.add_zero _]
  congr 1
  refine List.map_congr_left ?_
  intro i _
  rw [Function.comp_apply, Nat.succ_eq_add_one, add_ofNat_succ]

/-- The slot behind a window is outside it. -/
theorem window_set_behind (divides : N ∣ 4294967296) (room : count < N) {behind : UInt32}
    (reaches : index + .ofNat count = behind) (x : α) :
    window (slots.setIfInBounds (behind.toNat % N) x) blank index count = window slots blank index count := by
  refine List.map_congr_left ?_
  intro i member
  have less : i < count := List.mem_range.mp member
  have apart := slot_ne divides index less (by omega)
  rw [reaches] at apart
  rw [Vector.getElem?_setIfInBounds_ne apart.symm]

/-- The slot before a window is outside it. -/
theorem window_set_before (divides : N ∣ 4294967296) (room : count < N) (x : α) :
    window (slots.setIfInBounds (index.toNat % N) x) blank (index + 1) count = window slots blank (index + 1) count := by
  refine List.map_congr_left ?_
  intro i member
  have less : i < count := List.mem_range.mp member
  have apart := slot_ne divides index (Nat.succ_pos i) (by omega)
  rw [show index + .ofNat 0 = index from UInt32.add_zero _, Nat.succ_eq_add_one, add_ofNat_succ] at apart
  rw [Vector.getElem?_setIfInBounds_ne apart]

/-- A window grows by what is put into the slot behind it. -/
theorem window_push (divides : N ∣ 4294967296) (room : count < N) {behind : UInt32}
    (reaches : index + .ofNat count = behind) (x : α) :
    window (slots.setIfInBounds (behind.toNat % N) x) blank index (count + 1) =
      window slots blank index count ++ [x] := by
  have inside : behind.toNat % N < N := Nat.mod_lt _ (by omega)
  rw [← window_set_behind divides room reaches x, window, List.range_succ, List.map_append, List.map_singleton,
    reaches, Vector.getElem?_setIfInBounds_self_of_lt inside]
  rfl

end AirMonitor.Window
