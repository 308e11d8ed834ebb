import AirMonitor.At.Line

/-!
A whole response, line by line. Each line is read on its own, the first ten are
kept and the others counted, and lines with broken quoting are left out and
counted.
-/
namespace AirMonitor.At

/-- The most lines kept of a response. -/
def lineRoom : Nat := 10

/-- Carriage return or line feed. -/
def isBreak (b : UInt8) : Bool := b = 13 || b = 10

/-- The lines of a response. A carriage return, a line feed or the pair of them ends a line. -/
def splitLines : Bytes → List Bytes
  | [] => []
  | 13 :: 10 :: bs => [] :: splitLines bs
  | b :: bs =>
    if isBreak b then [] :: splitLines bs
    else
      match splitLines bs with
      | [] => [[b]]
      | l :: ls => (b :: l) :: ls

structure Document where
  lines : List ResponseLine
  /-- The lines left out for want of room. -/
  dropped : Nat
  /-- The lines left out for broken quoting. -/
  malformed : Nat
deriving DecidableEq, Repr

/-- Reads a response. -/
def tokenize (raw : Bytes) : Document :=
  let readings := (splitLines raw).map LineReading.ofBytes
  let lines := readings.filterMap fun
    | .line l => some l
    | _ => none
  ⟨lines.take lineRoom, lines.length - lineRoom, readings.count .malformed⟩

namespace Document

/-- The first line with a preamble. -/
def property? (d : Document) (preamble : String) : Option ResponseLine := d.lines.find? (·.preamble = preamble)

/-- All lines with a preamble, in order. -/
def linesWith (d : Document) (preamble : String) : List ResponseLine := d.lines.filter (·.preamble = preamble)

end Document
end AirMonitor.At
