import AirMonitor.Proofs.Console.Typing

/-!
The screen shows the line that its end would submit. A terminal edits a line by what is written
to it (`shown?`), and what the shell has written since its prompt makes the line that it holds
(`Mirrors`). Every byte keeps this: it changes the line and the screen alike, or neither of them
(`Shell.Fed.mirrors`), and the end of a line and an interrupt begin with an empty one. So it holds
at every moment of every run (`screen_shows_line`).
-/
namespace AirMonitor.Console

/-! ### A terminal -/

/-- What a line of a terminal shows after some output. A character goes to its end, and a space
    between two backspaces takes the last character off. There is none if the output does
    anything else, such as to erase what stands before the line. -/
def shown? : List Char → List Char → Option (List Char)
  | line, [] => some line
  | line, '\x08' :: ' ' :: '\x08' :: rest => if line = [] then none else shown? line.dropLast rest
  | line, c :: rest => if ' ' ≤ c ∧ c ≤ '~' then shown? (line ++ [c]) rest else none

theorem shown?_char {c : Char} (printable : ' ' ≤ c ∧ c ≤ '~') (line rest : List Char) :
    shown? line (c :: rest) = shown? (line ++ [c]) rest := by
  have no_backspace : c ≠ '\x08' := by
    rintro rfl
    exact absurd printable.1 (by decide)
  rw [shown?.eq_def]
  split
  · contradiction
  · next same => exact absurd (List.cons.inj same).1 no_backspace
  · next same =>
    obtain ⟨rfl, rfl⟩ := List.cons.inj same
    exact if_pos printable

theorem shown?_erase {line : List Char} (nonempty : line ≠ []) (rest : List Char) :
    shown? line ('\x08' :: ' ' :: '\x08' :: rest) = shown? line.dropLast rest := by
  rw [shown?, if_neg nonempty]

/-- Output that follows other output edits what that has left. -/
theorem shown?_append {line output after : List Char} (shows : shown? line output = some after) (more : List Char) :
    shown? line (output ++ more) = shown? after more := by
  fun_induction shown? line output with
  | case1 line => rw [Option.some.inj shows, List.nil_append]
  | case2 rest => cases shows
  | case3 line rest nonempty ih => exact (shown?_erase nonempty _).trans (ih shows)
  | case4 line c rest _ printable ih => exact (shown?_char printable _ _).trans (ih shows)
  | case5 => cases shows

/-! ### A screen that is watched -/

/-- A host, and what was written to its screen. -/
structure Watched (κ : Type) where
  host : κ
  written : String := ""

instance {κ : Type} [Host κ] : Host (Watched κ) where
  command text h :=
    let (answer, host) := Host.command text h.host
    (answer, { h with host })
  write text h := { host := Host.write text h.host, written := h.written ++ text }

variable {κ : Type} [Host κ] {shell : Shell} {line : Line} {since : String} {byte : UInt8}

/-- What was written since the line was empty makes the line. -/
structure Mirrors (line : Line) (since : String) : Prop where
  shows : shown? [] since.toList = some (textOf line.bytes).toList
  printable : ∀ byte ∈ line.bytes, isPrintable byte = true

namespace Mirrors

theorem cleared : Mirrors {} "" := ⟨rfl, nofun⟩

theorem same {after : Line} (mirrors : Mirrors line since) (bytes : after.bytes = line.bytes) :
    Mirrors after (since ++ "") := by
  rw [String.append_empty]
  exact ⟨bytes ▸ mirrors.shows, bytes ▸ mirrors.printable⟩

theorem typed {after : Line} (mirrors : Mirrors line since) (printable : isPrintable byte = true)
    (bytes : after.bytes = line.bytes ++ [byte]) : Mirrors after (since ++ (Char.ofNat byte.toNat).toString) where
  shows := by
    have output : (Char.ofNat byte.toNat).toString.toList = [Char.ofNat byte.toNat] := by simp
    rw [String.toList_append, shown?_append mirrors.shows, output, shown?_char (char_of_printable printable), bytes]
    simp [textOf, shown?]
  printable := by
    rw [bytes]
    intro b member
    rcases List.mem_append.mp member with old | new
    · exact mirrors.printable b old
    · rwa [List.mem_singleton.mp new]

theorem erased {after : Line} (mirrors : Mirrors line since) (nonempty : line.bytes ≠ [])
    (bytes : after.bytes = line.bytes.dropLast) : Mirrors after (since ++ "\x08 \x08") where
  shows := by
    have some_text : (textOf line.bytes).toList ≠ [] := by simpa [textOf] using nonempty
    have output : "\x08 \x08".toList = ['\x08', ' ', '\x08'] := rfl
    rw [String.toList_append, shown?_append mirrors.shows, output, shown?_erase some_text, bytes]
    simp [textOf, shown?, List.map_dropLast]
  printable := by
    rw [bytes]
    exact fun b member => mirrors.printable b (List.mem_of_mem_dropLast member)

end Mirrors

/-! ### One byte -/

/-- What a byte within a line did: it wrote what makes the line on the screen the new line. -/
def Echoed (since : String) (h : Watched κ) (out : Shell × Watched κ) : Prop :=
  ∃ echo, out.2.written = h.written ++ echo ∧ Mirrors out.1.line (since ++ echo)

namespace Mirrors
variable {h : Watched κ}

omit [Host κ] in
theorem unchanged (mirrors : Mirrors shell.line since) : Echoed since h (shell, h) :=
  ⟨"", (String.append_empty).symm, mirrors.same rfl⟩

theorem key (mirrors : Mirrors shell.line since) (printable : isPrintable byte = true) (h : Watched κ) :
    Echoed since h (shell.key byte h) := by
  unfold Shell.key Line.push
  by_cases full : shell.line.bytes.length = Line.room
  · rw [if_pos full]
    exact ⟨"", (String.append_empty).symm, mirrors.same rfl⟩
  · rw [if_neg full]
    exact ⟨_, rfl, mirrors.typed printable rfl⟩

theorem backspace (mirrors : Mirrors shell.line since) (h : Watched κ) : Echoed since h (shell.backspace h) := by
  unfold Shell.backspace Line.pop?
  by_cases overflowed : shell.line.overflowed = true
  · rw [if_pos overflowed]
    exact mirrors.unchanged
  · rw [if_neg overflowed]
    cases last : shell.line.bytes.getLast? with
    | none => exact mirrors.unchanged
    | some b =>
      have nonempty : shell.line.bytes ≠ [] := by
        intro empty
        rw [empty] at last
        cases last
      exact ⟨_, rfl, mirrors.erased nonempty rfl⟩

end Mirrors

/-! ### Runs -/

omit [Host κ] in
theorem Typed.ofBytes_concat (bytes : Bytes) (byte : UInt8) : ofBytes (bytes ++ [byte]) = (ofBytes bytes).type byte := by
  rw [ofBytes, List.foldl_append]
  rfl

theorem typeAll_concat (bytes : Bytes) (byte : UInt8) (host : κ) :
    typeAll (bytes ++ [byte]) host = ((typeAll bytes host).1.feed byte (typeAll bytes host).2).2 := by
  rw [typeAll, List.foldl_append]
  rfl

theorem Shell.Fed.afterReturn {t : Typed} {host : κ} {out : Event × Shell × κ} (fed : Fed t byte shell host out) :
    out.2.1.afterReturn = shell.afterReturn := by
  cases fed with
  | ended ends =>
    unfold Shell.enter
    split <;> rfl
  | erased goes_on erases =>
    unfold Shell.backspace
    split <;> rfl
  | interrupted interrupts => rfl
  | typed goes_on stays printable =>
    unfold Shell.key
    split <;> rfl
  | idle goes_on stays unprintable keeps => rfl

theorem typeAll_afterReturn (bytes : Bytes) (host : κ) :
    (typeAll bytes host).1.afterReturn = decide ((Typed.ofBytes bytes).previous = some 13) := by
  induction bytes using List.reverseRecOn with
  | nil => rfl
  | append_singleton bytes byte ih =>
    rw [typeAll_concat, Typed.ofBytes_concat]
    exact (Shell.fed ih byte _).afterReturn.trans (by simp [Typed.type])

/-- A byte begins a new line, or it leaves line and screen alike. -/
theorem Shell.Fed.mirrors {t : Typed} {h : Watched κ} {out : Event × Shell × Watched κ} (fed : Fed t byte shell h out)
    (mirrors : Mirrors shell.line since) :
    (t.type byte).segment = [] ∧ out.2.1.line = {} ∨
      (t.type byte).segment = t.segment ++ [byte] ∧ Echoed since h out.2 := by
  cases fed with
  | ended ends =>
    left
    unfold Shell.enter
    refine ⟨by simp [Typed.type, ends], ?_⟩
    split <;> rfl
  | interrupted interrupts => exact .inl ⟨by simp [Typed.type, interrupts], rfl⟩
  | erased goes_on erases =>
    have stays : byte ≠ 3 := by rcases erases with rfl | rfl <;> decide
    exact .inr ⟨by simp [Typed.type, goes_on, stays], mirrors.backspace h⟩
  | typed goes_on stays printable => exact .inr ⟨by simp [Typed.type, goes_on, stays], mirrors.key printable h⟩
  | idle goes_on stays unprintable keeps => exact .inr ⟨by simp [Typed.type, goes_on, stays], mirrors.unchanged⟩

theorem typeAll_mirrors (bytes : Bytes) (host : κ) :
    let run (bytes : Bytes) := typeAll bytes ({ host } : Watched κ)
    ∃ before since, bytes = before ++ (Typed.ofBytes bytes).segment ∧
      (run bytes).2.written = (run before).2.written ++ since ∧ Mirrors (run bytes).1.line since := by
  intro run
  induction bytes using List.reverseRecOn with
  | nil => exact ⟨[], "", rfl, (String.append_empty).symm, .cleared⟩
  | append_singleton bytes byte ih =>
    obtain ⟨before, since, split, written, mirrors⟩ := ih
    have fed := Shell.fed (typeAll_afterReturn bytes ({ host } : Watched κ)) byte (run bytes).2
    have next : run (bytes ++ [byte]) = ((run bytes).1.feed byte (run bytes).2).2 := typeAll_concat bytes byte _
    rw [next, Typed.ofBytes_concat]
    rcases fed.mirrors mirrors with ⟨segment, cleared⟩ | ⟨segment, echo, more, still⟩
    · refine ⟨bytes ++ [byte], "", ?_, ?_, ?_⟩
      · rw [segment, List.append_nil]
      · rw [next, String.append_empty]
      · rw [cleared]
        exact .cleared
    · refine ⟨before, since ++ echo, ?_, ?_, still⟩
      · rw [segment, ← List.append_assoc, ← split]
      · rw [more, written, String.append_assoc]

/-! ### Bytes that are refused -/

/-- There is no room for the character, or nothing that may be deleted. -/
def Line.Refuses (line : Line) (byte : UInt8) : Prop :=
  isPrintable byte = true ∧ line.bytes.length = 128 ∨
    (byte = 8 ∨ byte = 0x7f) ∧ (line.bytes = [] ∨ line.overflowed = true)

theorem Line.Refuses.push (refuses : line.Refuses byte) (printable : isPrintable byte = true) :
    line.push byte = (false, { line with overflowed := true }) := by
  rcases refuses with ⟨-, full⟩ | ⟨erases, -⟩
  · exact if_pos full
  · rcases erases with rfl | rfl <;> exact absurd printable (by decide)

theorem Line.Refuses.pop (refuses : line.Refuses byte) (erases : byte = 8 ∨ byte = 0x7f) : line.pop? = none := by
  unfold Line.pop?
  rcases refuses with ⟨printable, -⟩ | ⟨-, empty | overflowed⟩
  · rcases erases with rfl | rfl <;> exact absurd printable (by decide)
  · split
    · rfl
    · rw [empty]
      rfl
  · exact if_pos overflowed

theorem Line.Refuses.within (refuses : line.Refuses byte) : byte ≠ 13 ∧ byte ≠ 10 ∧ byte ≠ 3 := by
  rcases refuses with ⟨printable, -⟩ | ⟨erases, -⟩
  · refine ⟨?_, ?_, ?_⟩ <;> rintro rfl <;> exact absurd printable (by decide)
  · rcases erases with rfl | rfl <;> decide

/-- A byte that is refused leaves the text and the host as they were. -/
theorem Shell.Fed.refused {t : Typed} {host : κ} {out : Event × Shell × κ} (fed : Fed t byte shell host out)
    (refuses : shell.line.Refuses byte) : out.2.1.line.bytes = shell.line.bytes ∧ out.2.2 = host := by
  have within := refuses.within
  cases fed with
  | ended ends => simp [Typed.ends, within] at ends
  | interrupted interrupts => exact absurd interrupts within.2.2
  | erased goes_on erases =>
    unfold Shell.backspace
    rw [refuses.pop erases]
    exact ⟨rfl, rfl⟩
  | typed goes_on stays printable =>
    unfold Shell.key
    rw [refuses.push printable]
    exact ⟨rfl, rfl⟩
  | idle goes_on stays unprintable keeps => exact ⟨rfl, rfl⟩

/-- At every moment, what was written since the last end of a line or interrupt makes just the
    line that the shell holds, and the text that its end would submit. A character that a full
    line refuses changes nothing and writes nothing, and neither does a deletion that an empty
    line or an overflowed one refuses. -/
theorem screen_shows_line (host : κ) (bytes : Bytes) :
    let run (bytes : Bytes) := typeAll bytes ({ host } : Watched κ)
    let line := (run bytes).1.line
    (∃ before since screen, bytes = before ++ (Typed.ofBytes bytes).segment ∧
      (run bytes).2.written = (run before).2.written ++ since ∧
      shown? [] since.toList = some screen.toList ∧ Utf8.encode screen = line.bytes ∧ screen = line.text) ∧
    ∀ byte, line.Refuses byte →
      let out := (run bytes).1.feed byte (run bytes).2
      out.2.1.line.bytes = line.bytes ∧ out.2.2 = (run bytes).2 := by
  intro run line
  refine ⟨?_, ?_⟩
  · obtain ⟨before, since, split, written, mirrors⟩ := typeAll_mirrors bytes host
    exact ⟨before, since, textOf line.bytes, split, written, mirrors.shows, encode_textOf mirrors.printable,
      (Line.text_of_printable mirrors.printable).symm⟩
  · intro byte refuses
    exact (Shell.fed (typeAll_afterReturn bytes ({ host } : Watched κ)) byte (run bytes).2).refused refuses

/-- The line `AX` after another one, typed with a mistake that was taken back, and a deletion in
    the empty line behind it. -/
theorem screen_shows_line_corrected :
    let run (bytes : Bytes) := typeAll bytes ({ host := {} } : Watched Rehearsal)
    (∃ before since, [65, 13, 65, 84, 8, 88] = before ++ [65, 84, 8, 88] ∧
      (run [65, 13, 65, 84, 8, 88]).2.written = (run before).2.written ++ since ∧
      shown? [] since.toList = some ['A', 'X']) ∧
    (run [65, 13]).1.line.Refuses 8 ∧ ((run [65, 13]).1.feed 8 (run [65, 13]).2).2.2 = (run [65, 13]).2 := by
  intro run
  obtain ⟨⟨before, since, screen, split, written, shows, -, text⟩, -⟩ :=
    screen_shows_line ({} : Rehearsal) [65, 13, 65, 84, 8, 88]
  obtain ⟨-, refused⟩ := screen_shows_line ({} : Rehearsal) [65, 13]
  have empty : (run [65, 13]).1.line.Refuses 8 := .inr ⟨.inl rfl, .inl (by decide +kernel)⟩
  have line : (run [65, 13, 65, 84, 8, 88]).1.line.text = "AX" := by decide +kernel
  refine ⟨⟨before, since, split, written, ?_⟩, empty, (refused 8 empty).2⟩
  rw [shows, text]
  exact congrArg (fun s : String => some s.toList) line

end AirMonitor.Console
