import AirMonitor.Text.Numeral

/-!
Binary32 numbers with a fixed number of decimal places. A finite number is a
whole number of units of 2^-149 (`units`), so rounding to places is division of
whole numbers: to the nearest, and from the middle to the even neighbour
(`divRound`). The sign stays also where all digits are zero.
-/
namespace AirMonitor

/-- A quotient rounded to the nearest whole number, from the middle to the even one. -/
def divRound (n d : Nat) : Nat :=
  if d < 2 * (n % d) ∨ (d = 2 * (n % d) ∧ n / d % 2 = 1) then n / d + 1 else n / d

/-- Rounding moves a quotient by at most one half. -/
theorem divRound_near (n : Nat) {d : Nat} (positive : 0 < d) :
    2 * n ≤ 2 * (d * divRound n d) + d ∧ 2 * (d * divRound n d) ≤ 2 * n + d := by
  have parts := Nat.div_add_mod n d
  have small := Nat.mod_lt n positive
  unfold divRound
  split
  · rw [Nat.mul_add, Nat.mul_one]; omega
  · omega

/-- A number in the 32-bit binary floating-point format, by its bits. -/
structure Binary32 where
  bits : UInt32
deriving DecidableEq, Repr

namespace Binary32

def isNegative (x : Binary32) : Bool := decide (0x80000000 ≤ x.bits.toNat)
def exponent (x : Binary32) : Nat := x.bits.toNat / 0x800000 % 0x100
def fraction (x : Binary32) : Nat := x.bits.toNat % 0x800000

/-- Neither an infinity nor no number at all. -/
def isFinite (x : Binary32) : Bool := decide (x.exponent ≠ 0xff)

/-- The magnitude of a finite number in units of 2^-149. -/
def units (x : Binary32) : Nat :=
  if x.exponent = 0 then x.fraction else (0x800000 + x.fraction) <<< (x.exponent - 1)

/-- A finite number with `places` digits after the point. -/
def toFixed (places : Nat) (x : Binary32) : String :=
  let one := Nat.pow 10 places
  let scaled := divRound (x.units * one) (1 <<< 149)
  let digits := Numeral.alignRight places '0' (Numeral.decimal (scaled % one))
  (if x.isNegative then "-" else "") ++ Numeral.decimal (scaled / one) ++ (if places = 0 then "" else "." ++ digits)

example : toFixed 2 ⟨0x41ac0000⟩ = "21.50" ∧ toFixed 0 ⟨0x40200000⟩ = "2" ∧ toFixed 2 ⟨0x80000000⟩ = "-0.00" := by
  decide +kernel

end Binary32
end AirMonitor
