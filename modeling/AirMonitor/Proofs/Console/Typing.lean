import AirMonitor.Board.Bench
import AirMonitor.Console.Rehearsal
import Mathlib.Data.List.Infix
import Mathlib.Tactic.SplitIfs

/-!
The shell forwards what was typed. The bytes since the last end of a line are given to an
editor without bounds (`edited`), and the line of the shell is what that editor holds, as
long as this never became longer than a line may be (`Follows`). So a line that ends is
forwarded as it was typed or, if it was too long at any moment, not at all
(`forwards_what_was_typed`), and it does not matter how its end is written.
-/
namespace AirMonitor.Console

/-! ### An editor without bounds -/

/-- A byte that stands for a character on the screen. -/
def isPrintable (byte : UInt8) : Bool := 0x20 ≤ byte && byte ≤ 0x7e

/-- What the editor makes of a byte: a character, a deletion or nothing. -/
def edit (text : Bytes) (byte : UInt8) : Bytes :=
  if isPrintable byte then text ++ [byte]
  else if byte = 8 ∨ byte = 0x7f then text.dropLast
  else text

def edited (segment : Bytes) : Bytes := segment.foldl edit []

/-- The text was longer than a line at some moment. -/
def Overlong (segment : Bytes) : Prop := ∃ typed ∈ segment.inits, 128 < (edited typed).length

instance (segment : Bytes) : Decidable (Overlong segment) := inferInstanceAs (Decidable (∃ _ ∈ _, _))

/-- The text of printable bytes. -/
def textOf (text : Bytes) : String := String.ofList (text.map fun byte => Char.ofNat byte.toNat)

/-! ### Segments -/

/-- What was typed since the last end of a line or interrupt, and the last byte of all. -/
structure Typed where
  segment : Bytes := []
  previous : Option UInt8 := none

namespace Typed

/-- A carriage return ends a line, and so does a line feed, but not the pair of them twice. -/
def ends (t : Typed) (byte : UInt8) : Bool := byte = 13 || byte = 10 && t.previous ≠ some 13

def type (t : Typed) (byte : UInt8) : Typed where
  segment := if t.ends byte || byte = 3 then [] else t.segment ++ [byte]
  previous := some byte

def ofBytes (bytes : Bytes) : Typed := bytes.foldl type {}

end Typed

/-! ### A shell that is watched -/

/-- A host, and the commands that were forwarded to it. -/
structure Overheard (κ : Type) where
  host : κ
  /-- The commands, in order. -/
  commands : List String := []

instance {κ : Type} [Host κ] : Host (Overheard κ) where
  command text h :=
    let (answer, host) := Host.command text h.host
    (answer, { host, commands := h.commands ++ [text] })
  write text h := { h with host := Host.write text h.host }

variable {κ : Type} [Host κ]

/-- The shell and its host after bytes that are typed one by one, whether or not the shell exits. -/
def typeAll (bytes : Bytes) (host : κ) : Shell × κ :=
  bytes.foldl (fun (shell, host) byte => (shell.feed byte host).2) ({}, host)

/-! ### What a byte does -/

/-- What the shell makes of a byte, by what the byte stands for. -/
inductive Shell.Fed (t : Typed) (byte : UInt8) (shell : Shell) (host : κ) : Event × Shell × κ → Prop
  | ended (ends : t.ends byte = true) : Fed t byte shell host (shell.enter host)
  | erased (goes_on : t.ends byte = false) (erases : byte = 8 ∨ byte = 0x7f) :
      Fed t byte shell host (.go, shell.backspace host)
  | interrupted (interrupts : byte = 3) : Fed t byte shell host (.go, shell.interrupt host)
  | typed (goes_on : t.ends byte = false) (stays : byte ≠ 3) (printable : isPrintable byte = true) :
      Fed t byte shell host (.go, shell.key byte host)
  | idle (goes_on : t.ends byte = false) (stays : byte ≠ 3) (unprintable : isPrintable byte = false)
      (keeps : ¬ (byte = 8 ∨ byte = 0x7f)) : Fed t byte shell host (.go, shell, host)

theorem Shell.fed {shell : Shell} {t : Typed} (after_return : shell.afterReturn = decide (t.previous = some 13))
    (byte : UInt8) (host : κ) : Fed t byte { shell with afterReturn := byte = 13 } host (shell.feed byte host) := by
  have ends : t.ends byte = (decide (byte = 13) || decide (byte = 10) && !shell.afterReturn) := by
    rw [after_return]
    simp [Typed.ends]
  unfold Shell.feed
  by_cases swallowed : byte = 10 ∧ shell.afterReturn = true
  · obtain ⟨rfl, returned⟩ := swallowed
    rw [if_pos ⟨rfl, returned⟩]
    exact .idle (by simp [ends, returned]) (by decide) (by decide) (by decide)
  rw [if_neg swallowed]
  by_cases enters : byte = 13 ∨ byte = 10
  · rw [if_pos enters]
    refine .ended ?_
    rcases enters with rfl | rfl
    · simp [ends]
    · simpa [ends] using swallowed
  rw [if_neg enters]
  rw [not_or] at enters
  have goes_on : t.ends byte = false := by simp [ends, enters]
  by_cases erases : byte = 0x7f ∨ byte = 8
  · rw [if_pos erases]
    exact .erased goes_on erases.symm
  rw [if_neg erases]
  by_cases interrupts : byte = 3
  · rw [if_pos interrupts]
    exact .interrupted interrupts
  rw [if_neg interrupts]
  by_cases printable : 0x20 ≤ byte ∧ byte ≤ 0x7e
  · rw [if_pos printable]
    exact .typed goes_on interrupts (by simpa [isPrintable] using printable)
  · rw [if_neg printable]
    exact .idle goes_on interrupts (by simpa [isPrintable] using printable) (by tauto)

/-! ### Editing -/

theorem char_of_printable {byte : UInt8} (printable : isPrintable byte = true) :
    ' ' ≤ Char.ofNat byte.toNat ∧ Char.ofNat byte.toNat ≤ '~' := by
  have every : ∀ x : Fin 256, isPrintable (UInt8.ofNat x) = true →
      ' ' ≤ Char.ofNat (UInt8.ofNat x).toNat ∧ Char.ofNat (UInt8.ofNat x).toNat ≤ '~' := by decide +kernel
  simpa using every ⟨byte.toNat, byte.toNat_lt⟩ (by simpa using printable)

theorem edited_concat (segment : Bytes) (byte : UInt8) : edited (segment ++ [byte]) = edit (edited segment) byte := by
  rw [edited, List.foldl_append]
  rfl

theorem printable_edited (segment : Bytes) : ∀ byte ∈ edited segment, isPrintable byte = true := by
  induction segment using List.reverseRecOn with
  | nil => simp [edited]
  | append_singleton segment last ih =>
    rw [edited_concat, edit]
    intro byte member
    split_ifs at member with printable erases
    · rcases List.mem_append.mp member with old | new
      · exact ih byte old
      · rwa [List.mem_singleton.mp new]
    · exact ih byte (List.mem_of_mem_dropLast member)
    · exact ih byte member

theorem overlong_concat (segment : Bytes) (byte : UInt8) :
    Overlong (segment ++ [byte]) ↔ Overlong segment ∨ 128 < (edited (segment ++ [byte])).length := by
  simp only [Overlong, List.mem_inits, List.prefix_concat_iff]
  constructor
  · rintro ⟨typed, rfl | before, long⟩
    · exact .inr long
    · exact .inl ⟨typed, before, long⟩
  · rintro (⟨typed, before, long⟩ | long)
    · exact ⟨typed, .inr before, long⟩
    · exact ⟨segment ++ [byte], .inl rfl, long⟩

theorem length_edited {segment : Bytes} (short : ¬ Overlong segment) : (edited segment).length ≤ 128 := by
  by_contra long
  exact short ⟨segment, List.mem_inits _ _ |>.mpr List.prefix_rfl, by omega⟩

theorem encode_textOf {text : Bytes} (printable : ∀ byte ∈ text, isPrintable byte = true) :
    Utf8.encode (textOf text) = text := by
  rw [textOf, Utf8.encode_ofList]
  refine Utf8.flatMap_plain fun byte member => ?_
  have below : byte ≤ 0x7e := by simpa using (Bool.and_eq_true_iff.mp (printable byte member)).2
  exact Nat.lt_of_le_of_lt (UInt8.le_iff_toNat_le.mp below) (by decide)

theorem Line.text_of_printable {line : Line} (printable : ∀ byte ∈ line.bytes, isPrintable byte = true) :
    line.text = textOf line.bytes := by
  have encoded := encode_textOf printable
  rw [Line.text, ← encoded, Utf8.text?_encode, encoded]
  rfl

/-! ### The line of the shell -/

/-- A line holds what the editor makes of a segment. -/
structure Line.Holds (line : Line) (segment : Bytes) : Prop where
  overflowed : line.overflowed = true ↔ Overlong segment
  bytes : ¬ Overlong segment → line.bytes = edited segment

namespace Line.Holds
variable {line : Line} {segment : Bytes} {byte : UInt8}

theorem cleared : ({} : Line).Holds [] := ⟨by decide, fun _ => rfl⟩

/-- A byte that makes the text no longer leaves a line overlong or not. -/
theorem of_shorter (holds : line.Holds segment) (shorter : (edit (edited segment) byte).length ≤ (edited segment).length)
    {after : Line} (overflowed : after.overflowed = line.overflowed)
    (bytes : ¬ Overlong segment → after.bytes = edit (edited segment) byte) : after.Holds (segment ++ [byte]) := by
  have same : Overlong (segment ++ [byte]) ↔ Overlong segment := by
    rw [overlong_concat, edited_concat]
    refine ⟨fun either => either.elim id fun long => ?_, .inl⟩
    by_contra short
    have room := length_edited short
    omega
  refine ⟨?_, fun short => ?_⟩
  · rw [overflowed, same, holds.overflowed]
  · rw [bytes (mt same.mpr short), edited_concat]

theorem push (holds : line.Holds segment) (printable : isPrintable byte = true) :
    (line.push byte).2.Holds (segment ++ [byte]) := by
  have typed : edited (segment ++ [byte]) = edited segment ++ [byte] := by
    rw [edited_concat, edit, if_pos printable]
  have longer := overlong_concat segment byte
  rw [typed, List.length_append, List.length_singleton] at longer
  by_cases long : Overlong segment
  · -- An overlong line stays so, whether or not there is room for the byte.
    have still : Overlong (segment ++ [byte]) := longer.mpr (.inl long)
    refine ⟨iff_of_true ?_ still, fun short => absurd still short⟩
    unfold Line.push
    split_ifs
    · rfl
    · exact holds.overflowed.mpr long
  · have bytes := holds.bytes long
    have room := length_edited long
    unfold Line.push
    by_cases full : line.bytes.length = Line.room
    · rw [if_pos full]
      rw [bytes, Line.room] at full
      have still : Overlong (segment ++ [byte]) := longer.mpr (.inr (by omega))
      exact ⟨iff_of_true rfl still, fun short => absurd still short⟩
    · rw [if_neg full]
      rw [bytes, Line.room] at full
      have short : ¬ Overlong (segment ++ [byte]) := by
        rw [longer]
        rintro (before | now)
        · exact long before
        · omega
      refine ⟨iff_of_false (mt holds.overflowed.mp long) short, fun _ => ?_⟩
      rw [typed, ← bytes]

theorem pop (holds : line.Holds segment) (erases : byte = 8 ∨ byte = 0x7f) :
    ((line.pop?.map Prod.snd).getD line).Holds (segment ++ [byte]) := by
  have erased : edit (edited segment) byte = (edited segment).dropLast := by
    rcases erases with rfl | rfl <;> rfl
  refine holds.of_shorter (by rw [erased, List.length_dropLast]; omega) ?_ ?_
  · unfold Line.pop?
    split_ifs
    · rfl
    · cases line.bytes.getLast? <;> rfl
  · intro short
    have flag : line.overflowed = false := Bool.eq_false_iff.mpr (mt holds.overflowed.mp short)
    rw [erased, ← holds.bytes short, Line.pop?, flag]
    cases last : line.bytes.getLast? with
    | none =>
      rw [List.getLast?_eq_none_iff] at last
      simp [last]
    | some b => rfl

theorem idle (holds : line.Holds segment) (unprintable : isPrintable byte = false) (keeps : ¬ (byte = 8 ∨ byte = 0x7f)) :
    line.Holds (segment ++ [byte]) := by
  have same : edit (edited segment) byte = edited segment := by
    rw [edit, if_neg (by simp [unprintable]), if_neg keeps]
  exact holds.of_shorter (by rw [same]) rfl fun short => by rw [same, holds.bytes short]

theorem text (holds : line.Holds segment) (short : ¬ Overlong segment) : line.text = textOf (edited segment) := by
  have bytes := holds.bytes short
  rw [← bytes]
  exact Line.text_of_printable (bytes ▸ printable_edited segment)

end Line.Holds

/-! ### What the shell forwards -/

/-- What the end of a line forwards: nothing, or the text that was typed. -/
def forwarded (segment : Bytes) : List String :=
  if Overlong segment ∨ textOf (edited segment) ∈ ["", "exit", "help"] then [] else [textOf (edited segment)]

namespace Shell

theorem write_commands (text : String) (h : Overheard κ) : (Host.write text h).commands = h.commands := rfl

theorem forward_commands (command : String) (h : Overheard κ) :
    (forward command h).commands = h.commands ++ [command] := by
  unfold forward
  have told : (Host.command command h).2.commands = h.commands ++ [command] := rfl
  rcases answered : Host.command command h with ⟨e | response, after⟩
  · rw [answered] at told
    simp only
    cases e.response? with
    | none => exact told
    | some captured => exact told
  · rw [answered] at told
    exact told

theorem submit_spec {line : Line} {segment : Bytes} (holds : line.Holds segment) (h : Overheard κ) :
    (submit line h).2.commands = h.commands ++ forwarded segment ∧
      ((submit line h).1 = .exit ↔ ¬ Overlong segment ∧ textOf (edited segment) = "exit") := by
  unfold submit forwarded
  by_cases long : Overlong segment
  · rw [if_pos (holds.overflowed.mpr long), if_pos (.inl long)]
    exact ⟨(List.append_nil _).symm, iff_of_false nofun fun both => both.1 long⟩
  · rw [if_neg (mt holds.overflowed.mp long), holds.text long]
    by_cases empty : textOf (edited segment) = ""
    · simp [empty]
    · by_cases leaves : textOf (edited segment) = "exit"
      · simp [leaves, long]
      · by_cases helps : textOf (edited segment) = "help"
        · simp [helps, write_commands]
        · simp [empty, leaves, helps, long, forward_commands]

theorem enter_spec {shell : Shell} {segment : Bytes} (holds : shell.line.Holds segment) (h : Overheard κ) :
    (shell.enter h).2.1 = { shell with line := {} } ∧
      (shell.enter h).2.2.commands = h.commands ++ forwarded segment ∧
      ((shell.enter h).1 = .exit ↔ ¬ Overlong segment ∧ textOf (edited segment) = "exit") := by
  obtain ⟨commands, exits⟩ := submit_spec holds (Host.write "\r\n" h)
  unfold enter
  rcases run : submit shell.line (Host.write "\r\n" h) with ⟨_ | _, after⟩
  · rw [run] at commands exits
    exact ⟨rfl, commands, exits⟩
  · rw [run] at commands exits
    exact ⟨rfl, commands, exits⟩

/-- The shell holds what was typed. -/
structure Follows (shell : Shell) (t : Typed) : Prop where
  afterReturn : shell.afterReturn = decide (t.previous = some 13)
  line : shell.line.Holds t.segment

theorem follows_fresh : Follows {} {} := ⟨rfl, .cleared⟩

/-- What a byte did: the end of a line forwarded what it has to, and nothing else forwarded
    anything or exited. -/
structure Responded (t : Typed) (byte : UInt8) (h : Overheard κ) (out : Event × Shell × Overheard κ) : Prop where
  follows : out.2.1.Follows (t.type byte)
  commands : out.2.2.commands = h.commands ++ (if t.ends byte then forwarded t.segment else [])
  exits : out.1 = .exit ↔ t.ends byte = true ∧ ¬ Overlong t.segment ∧ textOf (edited t.segment) = "exit"

variable {shell : Shell} {t : Typed} {byte : UInt8} {h after : Overheard κ}

omit [Host κ] in
theorem Responded.edits {line : Line} (goes_on : t.ends byte = false) (stays : byte ≠ 3)
    (holds : line.Holds (t.segment ++ [byte])) (commands : after.commands = h.commands) :
    Responded t byte h (.go, { line, afterReturn := byte = 13 }, after) := by
  have segment : (t.type byte).segment = t.segment ++ [byte] := by simp [Typed.type, goes_on, stays]
  refine ⟨⟨by simp [Typed.type], by rwa [segment]⟩, ?_, ?_⟩
  · simp [goes_on, commands]
  · simp [goes_on]

theorem Responded.enter (ended : t.ends byte = true) (holds : shell.line.Holds t.segment) :
    Responded t byte h (({ shell with afterReturn := byte = 13 } : Shell).enter h) := by
  have on_line : ({ shell with afterReturn := byte = 13 } : Shell).line.Holds t.segment := holds
  obtain ⟨cleared, commands, exits⟩ := enter_spec on_line h
  refine ⟨?_, by rw [commands, if_pos ended], by rw [exits, ended]; simp⟩
  rw [cleared]
  exact ⟨by simp [Typed.type], by simpa [Typed.type, ended] using Line.Holds.cleared⟩

theorem Responded.backspace (goes_on : t.ends byte = false) (erases : byte = 8 ∨ byte = 0x7f)
    (holds : shell.line.Holds t.segment) :
    Responded t byte h (.go, ({ shell with afterReturn := byte = 13 } : Shell).backspace h) := by
  have stays : byte ≠ 3 := by rcases erases with rfl | rfl <;> decide
  have popped_holds := holds.pop erases
  unfold Shell.backspace
  cases popped : shell.line.pop? with
  | none =>
    rw [popped] at popped_holds
    exact .edits goes_on stays popped_holds rfl
  | some taken =>
    rw [popped] at popped_holds
    exact .edits goes_on stays popped_holds rfl

theorem Responded.interrupt (shell : Shell) (h : Overheard κ) :
    Responded t 3 h (.go, ({ shell with afterReturn := false } : Shell).interrupt h) := by
  have goes_on : t.ends 3 = false := rfl
  refine ⟨⟨by simp [Typed.type, Shell.interrupt], ?_⟩, by simp [goes_on, Shell.interrupt, write_commands],
    by simp [goes_on]⟩
  simpa [Typed.type, Shell.interrupt] using Line.Holds.cleared

theorem Responded.key (goes_on : t.ends byte = false) (stays : byte ≠ 3) (printable : isPrintable byte = true)
    (holds : shell.line.Holds t.segment) :
    Responded t byte h (.go, ({ shell with afterReturn := byte = 13 } : Shell).key byte h) := by
  have pushed_holds := holds.push printable
  unfold Shell.key
  rcases pushed : shell.line.push byte with ⟨_ | _, line⟩
  · rw [pushed] at pushed_holds
    exact .edits goes_on stays pushed_holds rfl
  · rw [pushed] at pushed_holds
    exact .edits goes_on stays pushed_holds rfl

theorem Follows.feed (follows : shell.Follows t) (byte : UInt8) (h : Overheard κ) :
    Responded t byte h (shell.feed byte h) := by
  have line := follows.line
  have fed := Shell.fed follows.afterReturn byte h
  generalize shell.feed byte h = out at fed ⊢
  cases fed with
  | ended ends => exact .enter ends line
  | erased goes_on erases => exact .backspace goes_on erases line
  | interrupted interrupts =>
    subst interrupts
    exact .interrupt shell h
  | typed goes_on stays printable => exact .key goes_on stays printable line
  | idle goes_on stays unprintable keeps => exact .edits goes_on stays (line.idle unprintable keeps) rfl

end Shell

/-! ### Runs -/

/-- What is forwarded while bytes are typed. -/
def forwardedIn (t : Typed) : Bytes → List String
  | [] => []
  | byte :: bytes => (if t.ends byte then forwarded t.segment else []) ++ forwardedIn (t.type byte) bytes

theorem Shell.Follows.typeAll {shell : Shell} {t : Typed} (follows : shell.Follows t) (bytes : Bytes) (h : Overheard κ) :
    let out := bytes.foldl (fun ((shell, h) : Shell × Overheard κ) byte => (shell.feed byte h).2) (shell, h)
    out.1.Follows (bytes.foldl Typed.type t) ∧ out.2.commands = h.commands ++ forwardedIn t bytes := by
  induction bytes generalizing shell t h with
  | nil => exact ⟨follows, (List.append_nil _).symm⟩
  | cons byte bytes ih =>
    have responded := follows.feed byte h
    obtain ⟨still, commands⟩ := ih responded.follows (shell.feed byte h).2.2
    refine ⟨still, commands.trans ?_⟩
    rw [responded.commands, forwardedIn, List.append_assoc]

theorem typeAll_follows (bytes : Bytes) (host : κ) :
    (typeAll bytes ({ host } : Overheard κ)).1.Follows (.ofBytes bytes) :=
  (Shell.follows_fresh.typeAll bytes _).1

theorem typeAll_commands (bytes : Bytes) (host : κ) :
    (typeAll bytes ({ host } : Overheard κ)).2.commands = forwardedIn {} bytes :=
  (Shell.follows_fresh.typeAll bytes _).2

/-! ### The commands -/

/-- A command fits a line and has characters of the screen only. -/
def Presentable (command : String) : Prop :=
  1 ≤ command.length ∧ command.length ≤ 128 ∧ ∀ ch ∈ command.toList, ' ' ≤ ch ∧ ch ≤ '~'

theorem presentable_textOf {text : Bytes} (some_text : textOf text ≠ "") (short : text.length ≤ 128)
    (printable : ∀ byte ∈ text, isPrintable byte = true) : Presentable (textOf text) := by
  have length : (textOf text).length = text.length := by simp [textOf]
  refine ⟨?_, by omega, ?_⟩
  · rw [length]
    refine List.length_pos_iff.mpr fun none => some_text ?_
    rw [none]
    rfl
  · intro ch member
    rw [textOf, String.toList_ofList] at member
    obtain ⟨byte, typed, rfl⟩ := List.mem_map.mp member
    exact char_of_printable (printable byte typed)

theorem presentable_forwarded {segment : Bytes} : ∀ command ∈ forwarded segment, Presentable command := by
  unfold forwarded
  split_ifs with kept
  · nofun
  · rw [not_or] at kept
    intro command member
    rw [List.mem_singleton.mp member]
    exact presentable_textOf (fun empty => kept.2 (by simp [empty])) (length_edited kept.1) (printable_edited segment)

theorem presentable_forwardedIn (t : Typed) (bytes : Bytes) : ∀ command ∈ forwardedIn t bytes, Presentable command := by
  induction bytes generalizing t with
  | nil => nofun
  | cons byte bytes ih =>
    intro command member
    rcases List.mem_append.mp member with now | later
    · split_ifs at now with ends
      · exact presentable_forwarded command now
      · exact absurd now List.not_mem_nil
    · exact ih _ command later

/-! ### The ends of lines -/

/-- How the end of a line is written. -/
inductive LineEnd
  | cr
  | lf
  | crlf

def LineEnd.bytes : LineEnd → Bytes
  | cr => [13]
  | lf => [10]
  | crlf => [13, 10]

/-- The same lines, whose ends may be written another way. -/
inductive SameLines : Bytes → Bytes → Prop
  | nil : SameLines [] []
  | byte {x : UInt8} {as bs : Bytes} : x ≠ 13 → x ≠ 10 → SameLines as bs → SameLines (x :: as) (x :: bs)
  | ended {as bs : Bytes} (e f : LineEnd) : SameLines as bs → SameLines (e.bytes ++ as) (f.bytes ++ bs)

/-- A segment that says the same to the shell. -/
structure Alike (a b : Bytes) : Prop where
  edited : edited a = edited b
  overlong : Overlong a ↔ Overlong b

namespace Alike

theorem concat {a b : Bytes} (alike : Alike a b) (byte : UInt8) : Alike (a ++ [byte]) (b ++ [byte]) := by
  have text : Console.edited (a ++ [byte]) = Console.edited (b ++ [byte]) := by
    rw [edited_concat, edited_concat, alike.edited]
  exact ⟨text, by rw [overlong_concat, overlong_concat, alike.overlong, text]⟩

theorem forwarded {a b : Bytes} (alike : Alike a b) : forwarded a = forwarded b := by
  simp only [Console.forwarded, alike.edited, alike.overlong]

/-- A line feed types nothing. -/
theorem after_feed {a : Bytes} (blank : Alike a []) : Alike (a ++ [10]) [] :=
  ⟨(blank.concat 10).edited, (blank.concat 10).overlong.trans (by decide)⟩

theorem forwarded_blank {a : Bytes} (blank : Alike a []) : Console.forwarded a = [] :=
  blank.forwarded.trans (by decide)

end Alike

namespace Typed

/-- Nothing was typed after a carriage return. -/
def Settled (t : Typed) : Prop := t.previous = some 13 → Alike t.segment []

/-- However it is written, the end of a line forwards the line, and the next one is blank. -/
theorem Settled.ended {t : Typed} (settled : t.Settled) (e : LineEnd) (bytes : Bytes) :
    ∃ after : Typed, forwardedIn t (e.bytes ++ bytes) = forwarded t.segment ++ forwardedIn after bytes ∧
      Alike after.segment [] := by
  refine ⟨e.bytes.foldl type t, ?_, ?_⟩
  · cases e with
    | cr => simp [LineEnd.bytes, forwardedIn, ends]
    | crlf => simp [LineEnd.bytes, forwardedIn, ends, type]
    | lf =>
      by_cases after_return : t.previous = some 13
      · simp [LineEnd.bytes, forwardedIn, ends, after_return, (settled after_return).forwarded_blank]
      · simp [LineEnd.bytes, forwardedIn, ends, after_return]
  · cases e with
    | cr => simpa [LineEnd.bytes, type, ends] using Alike.mk rfl Iff.rfl
    | crlf => simpa [LineEnd.bytes, type, ends] using Alike.after_feed ⟨rfl, Iff.rfl⟩
    | lf =>
      by_cases after_return : t.previous = some 13
      · simpa [LineEnd.bytes, type, ends, after_return] using (settled after_return).after_feed
      · simpa [LineEnd.bytes, type, ends, after_return] using Alike.mk rfl Iff.rfl

end Typed

/-- From segments alike, the same lines forward the same, however their ends are written. -/
theorem SameLines.forwardedIn {as bs : Bytes} (same : SameLines as bs) {s t : Typed} (alike : Alike s.segment t.segment)
    (left : s.Settled) (right : t.Settled) : forwardedIn s as = forwardedIn t bs := by
  induction same generalizing s t with
  | nil => rfl
  | @byte x as bs not_return not_feed _ ih =>
    have goes_on (t : Typed) : t.ends x = false := by simp [Typed.ends, not_return, not_feed]
    have settled (t : Typed) : (t.type x).Settled := fun returned => absurd (Option.some.inj returned) not_return
    rw [Console.forwardedIn, Console.forwardedIn, goes_on, goes_on]
    refine ih ?_ (settled s) (settled t)
    simp only [Typed.type, goes_on, Bool.false_or]
    split_ifs
    · exact ⟨rfl, Iff.rfl⟩
    · exact alike.concat x
  | ended e f _ ih =>
    obtain ⟨s', hs, blank_s⟩ := left.ended e _
    obtain ⟨t', ht, blank_t⟩ := right.ended f _
    rw [hs, ht, alike.forwarded]
    exact congrArg _ (ih ⟨blank_s.edited.trans blank_t.edited.symm, blank_s.overlong.trans blank_t.overlong.symm⟩
      (fun _ => blank_s) fun _ => blank_t)

/-- The end of a line forwards the text that was typed, once and as it was typed, if it was
    never too long and is no reserved word, and exits on `exit`; no other byte forwards
    anything or exits. So a command fits a line and has characters of the screen only, and
    it does not matter how the ends of the lines are written. -/
theorem forwards_what_was_typed (host : κ) :
    (∀ (typed : Bytes) (byte : UInt8),
      let t := Typed.ofBytes typed
      let before := typeAll typed ({ host } : Overheard κ)
      let out := before.1.feed byte before.2
      out.2.2.commands = before.2.commands ++ (if t.ends byte then forwarded t.segment else []) ∧
      (out.1 = .exit ↔ t.ends byte = true ∧ ¬ Overlong t.segment ∧ textOf (edited t.segment) = "exit")) ∧
    (∀ bytes, ∀ command ∈ (typeAll bytes ({ host } : Overheard κ)).2.commands, Presentable command) ∧
    ∀ as bs, SameLines as bs →
      (typeAll as ({ host } : Overheard κ)).2.commands = (typeAll bs ({ host } : Overheard κ)).2.commands := by
  refine ⟨fun typed byte => ?_, fun bytes => ?_, fun as bs same => ?_⟩
  · have responded := (typeAll_follows typed host).feed byte (typeAll typed ({ host } : Overheard κ)).2
    exact ⟨responded.commands, responded.exits⟩
  · rw [typeAll_commands]
    exact presentable_forwardedIn {} bytes
  · rw [typeAll_commands, typeAll_commands]
    exact same.forwardedIn ⟨rfl, Iff.rfl⟩ nofun nofun

/-- Two commands, whose lines end in one way and then in another. -/
theorem forwards_two_commands :
    let shell (bytes : Bytes) := typeAll bytes ({ host := {} } : Overheard Rehearsal)
    (shell [65, 84, 13, 10, 65, 84, 73, 10]).2.commands = ["AT", "ATI"] ∧
    (shell [65, 84, 10, 65, 84, 73, 13]).2.commands = ["AT", "ATI"] ∧ Presentable "ATI" := by
  intro shell
  have mixed : (shell [65, 84, 13, 10, 65, 84, 73, 10]).2.commands = ["AT", "ATI"] := by decide +kernel
  obtain ⟨-, presentable, ends⟩ := forwards_what_was_typed ({} : Rehearsal)
  have same : SameLines [65, 84, 13, 10, 65, 84, 73, 10] [65, 84, 10, 65, 84, 73, 13] :=
    .byte (by decide) (by decide) <| .byte (by decide) (by decide) <| .ended .crlf .lf <|
      .byte (by decide) (by decide) <| .byte (by decide) (by decide) <| .byte (by decide) (by decide) <|
        .ended .lf .cr .nil
  exact ⟨mixed, (ends _ _ same).symm.trans mixed, presentable _ "ATI" (by rw [mixed]; decide)⟩

end AirMonitor.Console
