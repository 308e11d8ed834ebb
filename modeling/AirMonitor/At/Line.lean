import AirMonitor.At.Token

/-!
One line of a response, as in `+CIPSTATUS:0,"TCP","192.168.5.114",48706,333,1`.
The last colon outside quotes ends the preamble, which begins after the colon
before it, and the fields between the commas after it are the tokens.
-/
namespace AirMonitor.At

/-- The most tokens kept of a line. -/
def tokenRoom : Nat := 15

structure ResponseLine where
  preamble : String
  tokens : List Token
  /-- The preamble or a value was cut, or tokens were left out. -/
  truncated : Bool
deriving DecidableEq, Repr

/-- What a line turns out to be. -/
inductive LineReading
  | line (l : ResponseLine)
  /-- It has no colon or no tokens: an echo, a blank or the end of the response. -/
  | noise
  /-- A quote stays open, or something follows a closing quote in its field. -/
  | malformed
deriving DecidableEq, Repr

/-- The fields of a payload that are not blank. -/
def fields (payload : Bytes) : List Bytes :=
  ((splitUnquoted (ascii ',') .outside payload).map trim).filter (!·.isEmpty)

/-- The line with a preamble and tokens, of which it keeps the first fifteen. -/
def ResponseLine.ofParts (preamble : Bytes) (tokens : List Token) : ResponseLine where
  preamble := keep preamble
  tokens := tokens.take tokenRoom
  truncated := isCut preamble || tokens.any Token.truncated || decide (tokenRoom < tokens.length)

/-- Reads what stands between two line breaks. -/
def LineReading.ofBytes (bytes : Bytes) : LineReading :=
  if (trim bytes).isEmpty then .noise
  else if ¬ Balanced bytes then .malformed
  else
    match (splitUnquoted (ascii ':') .outside bytes).reverse with
    | payload :: preamble :: _ =>
      match (fields payload).mapM Token.ofField? with
      | none => .malformed
      | some [] => .noise
      | some tokens => .line (.ofParts preamble tokens)
    | _ => .noise

namespace ResponseLine

/-- The number at a position. -/
def int? (l : ResponseLine) (i : Nat) : Option Int := l.tokens[i]?.bind Token.int?

/-- The text at a position, however it is written. -/
def text? (l : ResponseLine) (i : Nat) : Option String := l.tokens[i]?.map Token.text

end ResponseLine
end AirMonitor.At
