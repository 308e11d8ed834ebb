import AirMonitor.Modem.Flags

/-!
Sets of link flags, flag by flag. What an insertion or a removal does to a single flag
does not depend on the others (`contains_insert`, `contains_remove`), and a set is told by
its single flags and by what is beside them (`eq_of_contains`).
-/
namespace AirMonitor.ModemFlags

/-- The flags of which all sets are made. -/
def all : List ModemFlags := [wifiConnected, muxOn, serverOn, clientConnected, asClient]

/-- A flag that is not made of smaller ones: a set has it or has nothing of it. -/
def Single (f : ModemFlags) : Prop := f.bits ≠ 0 ∧ ∀ bits, bits &&& f.bits = 0 ∨ bits &&& f.bits = f.bits

theorem single_of_mem {f : ModemFlags} (member : f ∈ all) : f.Single := by
  have every : ∀ f ∈ all, f.bits ≠ 0 ∧
      ∀ x : Fin 256, UInt8.ofNat x &&& f.bits = 0 ∨ UInt8.ofNat x &&& f.bits = f.bits := by decide +kernel
  refine ⟨(every f member).1, fun bits => ?_⟩
  simpa using (every f member).2 ⟨bits.toNat, bits.toNat_lt⟩

theorem or_and (x y z : UInt8) : (x ||| y) &&& z = x &&& z ||| y &&& z :=
  UInt8.toBitVec_inj.mp BitVec.and_or_distrib_right

theorem contains_insert {f : ModemFlags} (single : f.Single) (a b : ModemFlags) :
    (a.insert b).contains f = (a.contains f || b.contains f) := by
  simp only [contains, insert, union, or_and]
  rcases single.2 a.bits with without | within <;> rcases single.2 b.bits with without' | within' <;> simp [*]

theorem contains_remove {f : ModemFlags} (single : f.Single) (a b : ModemFlags) :
    (a.remove b).contains f = (a.contains f && !b.contains f) := by
  have order : (a.bits &&& ~~~b.bits) &&& f.bits = a.bits &&& (~~~b.bits &&& f.bits) := UInt8.and_assoc ..
  have nonzero : ¬ 0 = f.bits := fun zero => single.1 zero.symm
  simp only [contains, remove, order]
  rcases single.2 b.bits with without | within
  · have kept : ~~~b.bits &&& f.bits = f.bits := by
      simpa [without] using (or_and b.bits (~~~b.bits) f.bits).symm
    simp [kept, without, nonzero]
  · have gone : ~~~b.bits &&& f.bits = 0 := by
      rw [← within, ← UInt8.and_assoc, UInt8.not_and_self, UInt8.zero_and]
    simp [gone, within, nonzero]

theorem contains_set {f b : ModemFlags} (single : f.Single) (a : ModemFlags) (on : Bool) :
    (a.set b on).contains f = if b.contains f then on else a.contains f := by
  cases on <;> cases within : b.contains f <;>
    simp [set, contains_insert single, contains_remove single, within]

/-- All flags. -/
def known : ModemFlags := all.foldr union none

/-- Nothing of a part is beside the whole. -/
theorem and_not_of_contains {b k : ModemFlags} (within : k.contains b = true) : b.bits &&& ~~~k.bits = 0 := by
  have within : k.bits &&& b.bits = b.bits := of_decide_eq_true within
  rw [← within, UInt8.and_comm k.bits, UInt8.and_assoc, UInt8.and_not_self, UInt8.and_zero]

theorem remove_insert {b k : ModemFlags} (within : k.contains b = true) (a : ModemFlags) :
    (a.insert b).remove k = a.remove k := by
  have gone := and_not_of_contains within
  simp [remove, insert, union, or_and, gone]

theorem remove_remove {b k : ModemFlags} (within : k.contains b = true) (a : ModemFlags) :
    (a.remove b).remove k = a.remove k := by
  have gone := and_not_of_contains within
  have kept : ~~~b.bits &&& ~~~k.bits = ~~~k.bits := by
    simpa [gone] using (or_and b.bits (~~~b.bits) (~~~k.bits)).symm
  simp [remove, UInt8.and_assoc, kept]

theorem remove_set {b k : ModemFlags} (within : k.contains b = true) (a : ModemFlags) (on : Bool) :
    (a.set b on).remove k = a.remove k := by
  cases on
  · exact remove_remove within a
  · exact remove_insert within a

/-- A set is told by its single flags and by what is beside them. -/
theorem eq_of_contains {a b : ModemFlags} (same : ∀ f ∈ all, a.contains f = b.contains f)
    (rest : a.remove known = b.remove known) : a = b := by
  have covered : ∀ flags : List ModemFlags, (∀ f ∈ flags, f ∈ all) →
      (flags.foldr union none).bits &&& a.bits = (flags.foldr union none).bits &&& b.bits := by
    intro flags members
    induction flags with
    | nil => simp [none]
    | cons f flags ih =>
      have single := single_of_mem (members f (by simp))
      have agree := same f (members f (by simp))
      have nonzero : ¬ 0 = f.bits := fun zero => single.1 zero.symm
      have one : f.bits &&& a.bits = f.bits &&& b.bits := by
        simp only [contains] at agree
        rw [UInt8.and_comm f.bits, UInt8.and_comm f.bits]
        rcases single.2 a.bits with without | within <;> rcases single.2 b.bits with without' | within' <;>
          simp_all
      rw [List.foldr_cons, union, or_and, or_and, one, ih fun f member => members f (by simp [member])]
  have whole : ∀ x : UInt8, x = known.bits &&& x ||| x &&& ~~~known.bits := by
    intro x
    have parts := or_and known.bits (~~~known.bits) x
    rw [UInt8.and_comm (~~~known.bits)] at parts
    simpa using parts
  have bits : a.bits = b.bits := by
    rw [whole a.bits, whole b.bits]
    congr 1
    · exact covered all fun f member => member
    · exact congrArg ModemFlags.bits rest
  cases a
  cases b
  exact congrArg ModemFlags.mk bits

end AirMonitor.ModemFlags
