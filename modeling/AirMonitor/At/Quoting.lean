import AirMonitor.Text.Utf8

/-!
Quoting in a line. A double quote opens and closes, and between the two a
backslash takes away the meaning of the next byte. A separator counts only outside
quotes (`splitUnquoted`); there the scan may as well begin anew, so a part can be
read without what stands before it.
-/
namespace AirMonitor.At

/-- The byte of an ASCII character. -/
def ascii (c : Char) : UInt8 := c.toNat.toUInt8

/-- Where a scan stands after some bytes. -/
inductive Quoting
  | outside
  | inside
  /-- Inside, right after a backslash. -/
  | escaped
deriving DecidableEq, Repr

namespace Quoting

def step : Quoting → UInt8 → Quoting
  | outside, b => if b = ascii '"' then inside else outside
  | inside, b => if b = ascii '\\' then escaped else if b = ascii '"' then outside else inside
  | escaped, _ => inside

/-- Where a scan stands after all bytes. -/
def scan (q : Quoting) (bs : Bytes) : Quoting := bs.foldl step q

@[simp] theorem scan_append (q : Quoting) (as bs : Bytes) : scan q (as ++ bs) = scan (scan q as) bs :=
  List.foldl_append

end Quoting

/-- Every quote that opens also closes. -/
def Balanced (bs : Bytes) : Prop := Quoting.scan .outside bs = .outside

instance (bs : Bytes) : Decidable (Balanced bs) := inferInstanceAs (Decidable (_ = _))

/-- The parts of a list of bytes between the separators that stand outside quotes. -/
def splitUnquoted (separator : UInt8) : Quoting → Bytes → List Bytes
  | _, [] => [[]]
  | q, b :: bs =>
    if q = .outside ∧ b = separator then [] :: splitUnquoted separator .outside bs
    else
      match splitUnquoted separator (q.step b) bs with
      | [] => [[b]]
      | part :: parts => (b :: part) :: parts

/-- What a quoted field says, read from behind its opening quote. The closing quote has to be the last byte. -/
def unquote : Quoting → Bytes → Option Bytes
  | _, [] => none
  | .escaped, b :: bs => (unquote .inside bs).map (b :: ·)
  | _, b :: bs =>
    if b = ascii '\\' then unquote .escaped bs
    else if b = ascii '"' then (if bs.isEmpty then some [] else none)
    else (unquote .inside bs).map (b :: ·)

/-- A blank byte: a space, a tab, a line feed, a form feed or a carriage return. -/
def isBlank (b : UInt8) : Bool := b = 32 || b = 9 || b = 10 || b = 12 || b = 13

/-- The bytes without blanks at both ends. -/
def trim (bs : Bytes) : Bytes := ((bs.dropWhile isBlank).reverse.dropWhile isBlank).reverse

end AirMonitor.At
