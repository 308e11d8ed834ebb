import AirMonitor.At.Quoting
import AirMonitor.Text.Numeral

/-!
The tokens of a response line: the values between its commas. A value is kept up
to 24 bytes and no further than it is UTF-8, and a token tells whether anything
was cut from it.
-/
namespace AirMonitor.At

/-- The most bytes kept of a value. -/
def valueRoom : Nat := 24

/-- The kept part of a value. -/
def keep (value : Bytes) : String := Utf8.longest (value.take valueRoom)

/-- Whether a part of the value is not kept: there is no room for it, or what there is room for is not UTF-8. -/
def isCut (value : Bytes) : Bool := decide (valueRoom < value.length) || (Utf8.text? (value.take valueRoom)).isNone

theorem isCut_eq_decide (value : Bytes) : isCut value = decide ((Utf8.encode (keep value)).length < value.length) := by
  have within : (Utf8.encode (keep value)).length ≤ (value.take valueRoom).length :=
    (Utf8.encode_longest_front _).length_le
  rw [List.length_take] at within
  by_cases long : valueRoom < value.length
  · rw [isCut, decide_eq_true long, Bool.true_or, decide_eq_true (by omega)]
  · have all : value.take valueRoom = value := List.take_of_length_le (by omega)
    rw [isCut, decide_eq_false long, Bool.false_or, Utf8.text?]
    rw [keep, all] at within ⊢
    by_cases whole : (Utf8.encode (Utf8.longest value)).length = value.length
    · rw [if_pos whole, decide_eq_false (by omega)]
      rfl
    · rw [if_neg whole, decide_eq_true (by omega)]
      rfl

/-! ### Quoted values as they are read -/

/-- The bytes that a quoted value has so far. -/
structure ValueBuffer where
  bytes : Bytes
  /-- A byte found no room. -/
  overflow : Bool
deriving DecidableEq, Repr

namespace ValueBuffer

def empty : ValueBuffer := ⟨[], false⟩

def push (buffer : ValueBuffer) (b : UInt8) : ValueBuffer :=
  if buffer.bytes.length < valueRoom then { buffer with bytes := buffer.bytes ++ [b] } else { buffer with overflow := true }

/-- Reads on behind the opening quote, up to the closing quote. That has to be the last byte. -/
def read? (buffer : ValueBuffer) : Quoting → Bytes → Option ValueBuffer
  | _, [] => none
  | .escaped, b :: bs => (buffer.push b).read? .inside bs
  | _, b :: bs =>
    if b = ascii '\\' then buffer.read? .escaped bs
    else if b = ascii '"' then (if bs.isEmpty then some buffer else none)
    else (buffer.push b).read? .inside bs

theorem foldl_push (buffer : ValueBuffer) (value : Bytes) (sound : buffer.bytes.length ≤ valueRoom) :
    value.foldl push buffer =
      ⟨(buffer.bytes ++ value).take valueRoom, buffer.overflow || decide (valueRoom < (buffer.bytes ++ value).length)⟩ := by
  induction value generalizing buffer with
  | nil => simp [List.take_of_length_le sound, Nat.not_lt.mpr sound]
  | cons b value ih =>
    rw [List.foldl_cons, push]
    by_cases room : buffer.bytes.length < valueRoom
    · rw [if_pos room, ih]
      · simp
      · simp only [List.length_append, List.length_singleton]
        omega
    · have full : valueRoom = buffer.bytes.length := by omega
      rw [if_neg room, ih ⟨buffer.bytes, true⟩ sound]
      simp [full]

/-- What is read is what the whole field says, byte by byte. -/
theorem read?_eq (buffer : ValueBuffer) (q : Quoting) (bs : Bytes) :
    buffer.read? q bs = (unquote q bs).map (·.foldl push buffer) := by
  induction bs generalizing buffer q with
  | nil => cases q <;> rfl
  | cons b bs ih =>
    have kept : (buffer.push b).read? .inside bs = ((unquote .inside bs).map (b :: ·)).map (·.foldl push buffer) := by
      rw [ih, Option.map_map]
      rfl
    have unescaped : (if b = ascii '\\' then buffer.read? .escaped bs
          else if b = ascii '"' then (if bs.isEmpty then some buffer else none)
          else (buffer.push b).read? .inside bs) =
        (if b = ascii '\\' then unquote .escaped bs
          else if b = ascii '"' then (if bs.isEmpty then some [] else none)
          else (unquote .inside bs).map (b :: ·)).map (·.foldl push buffer) := by
      by_cases slash : b = ascii '\\'
      · rw [if_pos slash, if_pos slash, ih]
      · by_cases quote : b = ascii '"'
        · rw [if_neg slash, if_pos quote, if_neg slash, if_pos quote]
          cases bs <;> rfl
        · rw [if_neg slash, if_neg quote, if_neg slash, if_neg quote, kept]
    cases q with
    | outside => exact unescaped
    | inside => exact unescaped
    | escaped => exact kept

end ValueBuffer

/-! ### Tokens -/

/-- How a value is written. -/
inductive TokenKind
  /-- As it is, like a number. -/
  | bare
  /-- Between double quotes. -/
  | quoted
deriving DecidableEq, Repr

/-- One value of a line. -/
structure Token where
  text : String
  kind : TokenKind
  truncated : Bool
deriving DecidableEq, Repr

namespace Token

def ofValue (kind : TokenKind) (value : Bytes) : Token := ⟨keep value, kind, isCut value⟩

/-- The token of a field that is not empty; none if its quoting is broken. -/
def ofField? : Bytes → Option Token
  | [] => none
  | b :: bs =>
    if b = ascii '"' then
      (ValueBuffer.empty.read? .inside bs).map fun buffer =>
        ⟨keep buffer.bytes, .quoted, buffer.overflow || isCut buffer.bytes⟩
    else some (ofValue .bare (b :: bs))

/-- A quoted value is cut by the room for its bytes and then to whole characters, and both come to one. -/
theorem ofField?_cons (b : UInt8) (bs : Bytes) :
    ofField? (b :: bs) =
      if b = ascii '"' then (unquote .inside bs).map (ofValue .quoted) else some (ofValue .bare (b :: bs)) := by
  have twice (value : Bytes) : (value.take valueRoom).take valueRoom = value.take valueRoom := by
    rw [List.take_take, Nat.min_self]
  have fits (value : Bytes) : ¬ valueRoom < (value.take valueRoom).length := by
    rw [List.length_take]
    omega
  have read (value : Bytes) :
      value.foldl ValueBuffer.push ValueBuffer.empty = ⟨value.take valueRoom, decide (valueRoom < value.length)⟩ := by
    rw [ValueBuffer.foldl_push ValueBuffer.empty value (Nat.zero_le _)]
    rfl
  rw [ofField?, ValueBuffer.read?_eq, Option.map_map]
  congr 2
  funext value
  simp only [Function.comp_apply, read, ofValue, keep, isCut, twice, fits, decide_false, Bool.false_or]

/-- The number that a bare token writes, if 32 bits hold it. -/
def int? (t : Token) : Option Int :=
  match t.kind with
  | .quoted => none
  | .bare => (Numeral.signed? t.text.toList).filter fun x => decide (-0x80000000 ≤ x ∧ x ≤ 0x7fffffff)

end Token
end AirMonitor.At
