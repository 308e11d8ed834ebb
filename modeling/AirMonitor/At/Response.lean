import AirMonitor.At.Document

/-!
Responses as they come over the wire, and the ways in which an exchange fails. A
response ends with a line of its own: `OK` for success, `ERROR` or `FAIL` for a
failure that the device reports (`verdict?`).
-/
namespace AirMonitor.At

/-- The bytes of one response, its last line included. -/
structure Response where
  bytes : Bytes
deriving DecidableEq, Repr

namespace Response

/-- The most bytes of a response. -/
def room : Nat := 1024

/-- The response in captured bytes, as far as there is room. -/
def ofBytes (bytes : Bytes) : Response := ⟨bytes.take room⟩

/-- The text of a response, up to the first byte that is not UTF-8. -/
def text (r : Response) : String := Utf8.longest r.bytes

def document (r : Response) : Document := tokenize r.bytes

end Response

/-- Why an exchange failed. -/
inductive CommError
  /-- No last line came before the deadline, or the command could not be written. -/
  | timeout
  /-- The device answered that it failed. -/
  | deviceReported (response : Response)
  /-- The response has more bytes than there is room for; these came first. -/
  | bufferExhausted (response : Response)
  /-- The command is longer than any command may be. Nothing was written. -/
  | commandTooLong
deriving DecidableEq, Repr

namespace CommError

def message : CommError → String
  | timeout => "no response before deadline"
  | deviceReported _ => "device reported error"
  | bufferExhausted _ => "response buffer exhausted"
  | commandTooLong => "command too long"

/-- The short form for logs. -/
def code : CommError → String
  | timeout => "C01"
  | deviceReported _ => "C02"
  | bufferExhausted _ => "C03"
  | commandTooLong => "C04"

/-- What came before the failure. -/
def response? : CommError → Option Response
  | deviceReported r | bufferExhausted r => some r
  | timeout | commandTooLong => none

end CommError

/-! ### The end of a response -/

/-- How a response that is complete ends. -/
inductive Verdict
  | success
  | failure
deriving DecidableEq, Repr

/-- The line break after commands and at the end of responses. -/
def lineBreak : Bytes := [13, 10]

/-- The last lines of responses. -/
def endings : List (Bytes × Verdict) :=
  [(Utf8.encode "OK" ++ lineBreak, .success),
   (Utf8.encode "ERROR" ++ lineBreak, .failure),
   (Utf8.encode "FAIL" ++ lineBreak, .failure)]

/-- The same endings, the last byte first. -/
def reversedEndings : List (Bytes × Verdict) := endings.map fun (ending, v) => (ending.reverse, v)

/-- The verdict on a response whose bytes are given with the last one first. -/
def verdictOfReverse? (newestFirst : Bytes) : Option Verdict :=
  (reversedEndings.find? fun (ending, _) => ending.isPrefixOf newestFirst).map Prod.snd

/-- The verdict that the last bytes of a response give, if they end it. -/
def verdict? (bytes : Bytes) : Option Verdict :=
  (endings.find? fun (ending, _) => ending.isSuffixOf bytes).map Prod.snd

theorem verdictOfReverse?_eq (newestFirst : Bytes) : verdictOfReverse? newestFirst = verdict? newestFirst.reverse := by
  simp [verdictOfReverse?, verdict?, reversedEndings, List.find?_map, Function.comp_def, List.isSuffixOf]

end AirMonitor.At
