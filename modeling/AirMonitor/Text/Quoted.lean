import AirMonitor.Text.Numeral

/-!
Text between double quotes, as it is shown to a person who looks for stray
bytes: quotes, backslashes and control characters are escaped.
-/
namespace AirMonitor.Quoted

/-- A character as it stands between the quotes. -/
def escape (c : Char) : String :=
  if c = '"' then "\\\""
  else if c = '\\' then "\\\\"
  else if c = '\t' then "\\t"
  else if c = '\r' then "\\r"
  else if c = '\n' then "\\n"
  else if c = '\x00' then "\\0"
  else if c.toNat < 0x20 ∨ (0x7f ≤ c.toNat ∧ c.toNat < 0xa0) then "\\u\x7b" ++ Numeral.hex c.toNat ++ "\x7d"
  else c.toString

/-- A text between quotes. -/
def quote (s : String) : String := "\"" ++ s.toList.foldl (fun shown c => shown ++ escape c) "" ++ "\""

example : quote "a\"b\r\n" = "\"a\\\"b\\r\\n\"" := by decide +kernel

end AirMonitor.Quoted
