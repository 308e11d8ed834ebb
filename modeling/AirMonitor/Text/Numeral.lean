/-!
Numbers as text. Whole numbers are written in base ten or sixteen without
leading zeros, a minus sign in front where they are negative. Reading takes an
optional sign and decimal digits and nothing else (`signed?`).
-/
namespace AirMonitor.Numeral

/-- A number in base ten. -/
def decimal (n : Nat) : String := String.ofList (Nat.toDigits 10 n)

/-- A number in base sixteen, with small letters. -/
def hex (n : Nat) : String := String.ofList (Nat.toDigits 16 n)

/-- A number in base ten with its sign. -/
def signed (x : Int) : String := if x < 0 then "-" ++ decimal x.natAbs else decimal x.natAbs

/-- A text moved to the right end of `width` characters; a longer one stays as it is. -/
def alignRight (width : Nat) (fill : Char) (s : String) : String :=
  String.ofList (List.replicate (width - s.length) fill) ++ s

/-- The number that decimal digits write, first digit first. -/
def value (digits : List Char) : Nat := digits.foldl (fun n c => 10 * n + (c.toNat - '0'.toNat)) 0

/-- The number that a text of one or more decimal digits writes. -/
def digits? (cs : List Char) : Option Nat :=
  if cs ≠ [] ∧ cs.all Char.isDigit then some (value cs) else none

/-- The number that decimal digits after at most one sign write. -/
def signed? : List Char → Option Int
  | '-' :: cs => (digits? cs).map fun n => -(n : Int)
  | '+' :: cs => (digits? cs).map Int.ofNat
  | cs => (digits? cs).map Int.ofNat

example : signed (-20) = "-20" ∧ alignRight 5 ' ' "ab" = "   ab" := by decide +kernel
example : signed? "-0042".toList = some (-42) ∧ signed? "+".toList = none ∧ signed? "".toList = none := by decide

end AirMonitor.Numeral
