import AirMonitor.Proofs.Telemetry.Cutting
import AirMonitor.Proofs.Text.Numerals

/-!
What a frame tells can be read back from its text. The text is cut at its quotes, so it does not
matter which other characters stand between them (`Part.ofText_chars`). Each object ends at the
first brace behind a quote (`objects_append`), and the values and the units of as many readings
as there are pair up again (`zipWith_listed`). So a frame that is rendered decodes to what it
holds, and its text is one line (`render_decodes`).
-/
namespace AirMonitor.Frame
open Numeral (isBare)

/-! ### Decoding -/

/-- What a frame tells: its readings with the text of each value, or nothing if that is not
    finite, and with the unit; the status; and the time in whole milliseconds. -/
structure Contents where
  readings : List (String × Option String × String)
  status : UInt32
  millis : Int
deriving DecidableEq, Repr

/-- A text in quotes, and what follows it up to the next quote. -/
structure Part where
  quoted : List Char
  behind : List Char
deriving DecidableEq, Repr

namespace Part

/-- Every two texts as a part. -/
def pairs : List (List Char) → List Part
  | quoted :: behind :: rest => ⟨quoted, behind⟩ :: pairs rest
  | _ => []

/-- The parts of a text from its first quote on. -/
def ofText (text : List Char) : List Part := pairs (text.splitOn '"').tail

/-- An object ends behind the quoted text. -/
def closes (p : Part) : Bool := decide ('\x7d' ∈ p.behind)

/-- The word or the number behind a colon. -/
def bare (p : Part) : List Char := (p.behind.drop 2).takeWhile isBare

/-- The text of a value, unless it is `null`. -/
def value? (p : Part) : Option String := if p.bare = "null".toList then none else some (String.ofList p.bare)

end Part

/-- The parts of each object in turn. -/
def objects : List Part → List (List Part)
  | [] => []
  | p :: ps =>
    if p.closes then [p] :: objects ps
    else match objects ps with
      | [] => [[p]]
      | object :: rest => (p :: object) :: rest

/-- The units in an object of names and units: the second of every two quoted texts. -/
def unitsOf : List Part → List String
  | _ :: unit :: ps => String.ofList unit.quoted :: unitsOf ps
  | _ => []

/-- What the text of a frame tells. -/
def decode? (text : String) : Option Contents :=
  match objects (Part.ofText text.toList) with
  | [_ :: values, _ :: units, [_, _, status], [time]] =>
    (Numeral.signed? time.bare).map fun millis =>
      { readings := List.zipWith (fun p unit => (String.ofList p.quoted, p.value?, unit)) values (unitsOf units)
        status := .ofNat (Numeral.hexValue status.quoted)
        millis }
  | _ => none

/-! ### Parts and objects -/

namespace Part
variable {ps : List Part} {front : List Char}

/-- The characters that a part stands for. -/
def chars (p : Part) : List Char := '"' :: p.quoted ++ '"' :: p.behind

/-- A character that is neither in the quotes of a part nor behind them. -/
def Lacks (x : Char) (p : Part) : Prop := x ∉ p.quoted ∧ x ∉ p.behind

theorem lacks_mk {x : Char} {quoted behind : List Char} (inside : x ∉ quoted) (outside : x ∉ behind) :
    (mk quoted behind).Lacks x :=
  ⟨inside, outside⟩

theorem splitOn_unquoted (unquoted : '"' ∉ front) : front.splitOn '"' = [front] := by
  refine List.splitOnP_eq_singleton fun c member => ?_
  rw [beq_eq_false_iff_ne]
  exact fun same => unquoted (same ▸ member)

theorem splitOn_quote (unquoted : '"' ∉ front) (rest : List Char) :
    (front ++ '"' :: rest).splitOn '"' = front :: rest.splitOn '"' := by
  have cut : (front ++ '"' :: rest).splitOn '"' = front.splitOn '"' ++ rest.splitOn '"' :=
    List.splitOnP_append_cons front rest (beq_self_eq_true '"')
  rw [cut, splitOn_unquoted unquoted, List.singleton_append]

theorem splitOn_chars (ahead : '"' ∉ front) (unquoted : ∀ p ∈ ps, p.Lacks '"') :
    (front ++ ps.flatMap chars).splitOn '"' = front :: ps.flatMap fun p => [p.quoted, p.behind] := by
  induction ps generalizing front with
  | nil => rw [List.flatMap_nil, List.append_nil, splitOn_unquoted ahead, List.flatMap_nil]
  | cons p ps ih =>
    have first := unquoted p List.mem_cons_self
    have more := ih first.2 fun q member => unquoted q (List.mem_cons_of_mem p member)
    have text : front ++ (p :: ps).flatMap chars =
        front ++ '"' :: (p.quoted ++ '"' :: (p.behind ++ ps.flatMap chars)) := by
      simp [chars]
    rw [text, splitOn_quote ahead, splitOn_quote first.1, more]
    rfl

theorem pairs_flatMap (ps : List Part) : pairs (ps.flatMap fun p => [p.quoted, p.behind]) = ps := by
  induction ps with
  | nil => rfl
  | cons p ps ih => exact congrArg (p :: ·) ih

theorem Lacks.chars {x : Char} {p : Part} (lacks : p.Lacks x) (unlike : x ≠ '"') : x ∉ p.chars := by
  simp [Part.chars, lacks.1, lacks.2, unlike]

/-- Parts are read back from their characters. -/
theorem ofText_chars (ahead : '"' ∉ front) (unquoted : ∀ p ∈ ps, p.Lacks '"') :
    ofText (front ++ ps.flatMap chars) = ps := by
  rw [ofText, splitOn_chars ahead unquoted, List.tail_cons, pairs_flatMap]

end Part

/-- The parts of one object: it ends behind the last of them. -/
inductive Closed : List Part → Prop
  | last {p : Part} (closes : p.closes = true) : Closed [p]
  | cons {p : Part} {ps : List Part} (opens : p.closes = false) (closed : Closed ps) : Closed (p :: ps)

theorem Closed.behind {front ps : List Part} (opens : ∀ p ∈ front, p.closes = false) (closed : Closed ps) :
    Closed (front ++ ps) := by
  induction front with
  | nil => exact closed
  | cons p front ih =>
    exact .cons (opens p List.mem_cons_self) (ih fun q member => opens q (List.mem_cons_of_mem p member))

theorem objects_append {ps : List Part} (closed : Closed ps) (rest : List Part) :
    objects (ps ++ rest) = ps :: objects rest := by
  induction closed with
  | last closes => exact if_pos closes
  | cons opens closed ih => simp [objects, opens, ih]

/-! ### The parts of a frame -/

variable {fields : List Char → Reading → List Part} {spelled : Reading → List String} {rs : List Reading} {f : Frame}

/-- What a reading tells, with nothing in place of a value that is not finite. -/
def told (r : Reading) : String × Option String × String :=
  (r.name, if r.value.isFinite then some (r.value.toFixed r.places.toNat) else none, r.unit)

def contents (f : Frame) : Contents where
  readings := f.readings.map told
  status := f.status.bits
  millis := f.time.toMillis

/-- The part of a reading's value, with what separates it from the next. -/
def valueParts (separator : List Char) (r : Reading) : List Part :=
  [⟨r.name.toList, ": ".toList ++ (valueText r).toList ++ separator⟩]

/-- The parts of a reading's unit, with what separates them from the next. -/
def unitParts (separator : List Char) (r : Reading) : List Part :=
  [⟨r.name.toList, ": ".toList⟩, ⟨r.unit.toList, separator⟩]

/-- The parts of several readings, up to the end of the object. What separates two fields stands
    in the part ahead of it, and so does the brace behind the last. -/
def listedParts (fields : List Char → Reading → List Part) : List Reading → List Part
  | [] => []
  | [r] => fields "\x7d, ".toList r
  | r :: rs => fields ", ".toList r ++ listedParts fields rs

/-- The parts of an object that has fields for each reading. -/
def objectParts (name : String) (fields : List Char → Reading → List Part) (rs : List Reading) : List Part :=
  ⟨name.toList, (if rs = [] then ": \x7b\x7d, " else ": \x7b").toList⟩ :: listedParts fields rs

def statusParts (f : Frame) : List Part :=
  [⟨"status".toList, ": \x7b".toList⟩, ⟨"sensor".toList, ": ".toList⟩,
    ⟨(Numeral.hex f.status.bits.toNat).toList, "\x7d, ".toList⟩]

def timeParts (f : Frame) : List Part :=
  [⟨"timestamp_ms".toList, ": ".toList ++ (Numeral.signed f.time.toMillis).toList ++ "\x7d\n".toList⟩]

/-- The parts of all objects in a frame. -/
def headParts (f : Frame) : List Part :=
  objectParts "data" valueParts f.readings ++ objectParts "units" unitParts f.readings ++ f.statusParts

def parts (f : Frame) : List Part := f.headParts ++ f.timeParts

/-! #### Their characters -/

section
variable (writes : ∀ separator r,
  (fields separator r).flatMap Part.chars = (spelled r).flatMap String.toList ++ separator)
include writes

theorem chars_listed (some_reading : rs ≠ []) :
    (listedParts fields rs).flatMap Part.chars = (listed spelled rs).flatMap String.toList ++ "\x7d, ".toList := by
  induction rs with
  | nil => exact absurd rfl some_reading
  | cons r rs ih =>
    -- the last reading is followed by the brace, every other by a comma
    cases rs with
    | nil => simp [listedParts, listed, writes]
    | cons r' rs =>
      have more := ih (List.cons_ne_nil r' rs)
      have text : listed spelled (r :: r' :: rs) = spelled r ++ [", "] ++ listed spelled (r' :: rs) := by
        simp [listed]
      have parts : listedParts fields (r :: r' :: rs) = fields ", ".toList r ++ listedParts fields (r' :: rs) := rfl
      rw [parts, List.flatMap_append, writes, more, text]
      simp

theorem chars_object (name : String) (rs : List Reading) :
    (objectParts name fields rs).flatMap Part.chars =
      '"' :: name.toList ++ "\": \x7b".toList ++ (listed spelled rs).flatMap String.toList ++ "\x7d, ".toList := by
  by_cases empty : rs = []
  · simp [objectParts, empty, listedParts, listed, Part.chars]
  · rw [objectParts, if_neg empty, List.flatMap_cons, chars_listed writes empty]
    simp [Part.chars]

end

theorem toList_text (f : Frame) : f.text.toList = ['\x7b'] ++ f.parts.flatMap Part.chars := by
  have values : ∀ separator r, (valueParts separator r).flatMap Part.chars =
      (valuePieces r).flatMap String.toList ++ separator := by
    intro separator r
    simp [valueParts, valuePieces, Part.chars]
  have units : ∀ separator r, (unitParts separator r).flatMap Part.chars =
      (unitPieces r).flatMap String.toList ++ separator := by
    intro separator r
    simp [unitParts, unitPieces, Part.chars]
  rw [parts, headParts, List.flatMap_append, List.flatMap_append, List.flatMap_append, chars_object values,
    chars_object units]
  simp [text, pieces, statusParts, timeParts, Part.chars]

/-! #### Their ends -/

theorem closed_listed (opens : ∀ r, ∀ p ∈ fields ", ".toList r, p.closes = false)
    (closed : ∀ r, Closed (fields "\x7d, ".toList r)) (some_reading : rs ≠ []) : Closed (listedParts fields rs) := by
  induction rs with
  | nil => exact absurd rfl some_reading
  | cons r rs ih =>
    cases rs with
    | nil => exact closed r
    | cons r' rs => exact (ih (List.cons_ne_nil r' rs)).behind (opens r)

theorem closed_object (opens : ∀ r, ∀ p ∈ fields ", ".toList r, p.closes = false)
    (closed : ∀ r, Closed (fields "\x7d, ".toList r)) (name : String) (rs : List Reading) :
    Closed (objectParts name fields rs) := by
  by_cases empty : rs = []
  · rw [objectParts, empty]
    exact .last rfl
  · rw [objectParts, if_neg empty]
    exact .cons rfl (closed_listed opens closed empty)

theorem isBare_valueText (r : Reading) : ∀ c ∈ (valueText r).toList, isBare c = true := by
  intro c member
  unfold valueText at member
  split at member
  · rcases Binary32.mem_toFixed member with digit | rfl | rfl
    · exact Numeral.isBare_of_isDigit digit
    · decide
    · decide
  · have all : "null".toList.all isBare = true := by decide
    exact List.all_eq_true.mp all c member

theorem closed_values (rs : List Reading) : Closed (objectParts "data" valueParts rs) := by
  refine closed_object (fun r p member => ?_) (fun r => .last ?_) "data" rs
  · have no_brace : '\x7d' ∉ (valueText r).toList := fun within => absurd (isBare_valueText r _ within) (by decide)
    rw [List.mem_singleton.mp member]
    simp [Part.closes, no_brace]
  · simp [Part.closes]

theorem closed_units (rs : List Reading) : Closed (objectParts "units" unitParts rs) := by
  refine closed_object (fun r p member => ?_) (fun r => .cons rfl (.last rfl)) "units" rs
  rcases List.mem_pair.mp member with rfl | rfl <;> rfl

theorem objects_parts (f : Frame) :
    objects f.parts = [objectParts "data" valueParts f.readings, objectParts "units" unitParts f.readings,
      f.statusParts, f.timeParts] := by
  have status : Closed f.statusParts := .cons rfl (.cons rfl (.last rfl))
  have time : Closed f.timeParts := .last (by simp [Part.closes])
  rw [parts, headParts, List.append_assoc, List.append_assoc, objects_append (closed_values f.readings),
    objects_append (closed_units f.readings), objects_append status, ← List.append_nil f.timeParts, objects_append time]
  rfl

/-! #### What they tell -/

theorem bare_of_number {quoted number rest : List Char} {ends : Char} (bare : ∀ c ∈ number, isBare c = true)
    (separates : isBare ends = false) : (Part.mk quoted (": ".toList ++ number ++ ends :: rest)).bare = number := by
  have dropped : (": ".toList ++ number ++ ends :: rest).drop 2 = number ++ ends :: rest := by
    rw [List.append_assoc]
    rfl
  rw [Part.bare, dropped, List.takeWhile_append_of_pos bare, List.takeWhile_cons_of_neg (Bool.eq_false_iff.mp separates),
    List.append_nil]

theorem value?_told {p : Part} {r : Reading} (number : p.bare = (valueText r).toList) : p.value? = (told r).2.1 := by
  rw [Part.value?, number, valueText, told]
  by_cases finite : r.value.isFinite = true
  · -- no finite value is taken for the word
    have digits : (r.value.toFixed r.places.toNat).toList ≠ "null".toList := by
      intro same
      have letter : 'n' ∈ (r.value.toFixed r.places.toNat).toList := by
        rw [same]
        decide
      exact absurd (Binary32.mem_toFixed letter) (by decide)
    rw [if_pos finite, if_pos finite, if_neg digits, String.ofList_toList]
  · rw [if_neg finite, if_neg finite, if_pos rfl]

/-- The values and the units come in the same order. -/
theorem zipWith_listed (rs : List Reading) :
    List.zipWith (fun p unit => (String.ofList p.quoted, p.value?, unit)) (listedParts valueParts rs)
      (unitsOf (listedParts unitParts rs)) = rs.map told := by
  have first (r : Reading) {ends : Char} (separates : isBare ends = false) (rest : List Char) :
      (String.ofList r.name.toList,
        (Part.mk r.name.toList (": ".toList ++ (valueText r).toList ++ ends :: rest)).value?,
        String.ofList r.unit.toList) = told r := by
    rw [value?_told (bare_of_number (isBare_valueText r) separates), String.ofList_toList, String.ofList_toList]
    rfl
  induction rs with
  | nil => rfl
  | cons r rs ih =>
    cases rs with
    | nil => exact congrArg ([·]) (first r (by decide) ", ".toList)
    | cons r' rs => exact congrArg₂ List.cons (first r (by decide) " ".toList) ih

/-! #### Characters that they lack -/

/-- The characters of the numbers, the keys and the marks in a frame. -/
def isPlain (c : Char) : Bool := isBare c || ":\x7b\x7d, ".toList.contains c

theorem isPlain_of_isBare {c : Char} (bare : isBare c = true) : isPlain c = true := by
  rw [isPlain, bare, Bool.true_or]

theorem forall_listedParts {motive : Part → Prop}
    (each : ∀ r ∈ rs, ∀ separator ∈ [", ".toList, "\x7d, ".toList], ∀ p ∈ fields separator r, motive p) :
    ∀ p ∈ listedParts fields rs, motive p := by
  induction rs with
  | nil => exact nofun
  | cons r rs ih =>
    have here := each r List.mem_cons_self
    cases rs with
    | nil => exact here _ (by simp)
    | cons r' rs =>
      intro p member
      rcases List.mem_append.mp member with first | later
      · exact here _ (by simp) p first
      · exact ih (fun r among => each r (List.mem_cons_of_mem _ among)) p later

section
variable {x : Char} (foreign : isPlain x = false)
include foreign

theorem not_mem_of_bare {text : List Char} (bare : ∀ c ∈ text, isBare c = true) : x ∉ text :=
  fun member => Bool.false_ne_true (foreign.symm.trans (isPlain_of_isBare (bare x member)))

theorem not_mem_of_plain {text : List Char} (plain : text.all isPlain = true) : x ∉ text :=
  fun member => Bool.false_ne_true (foreign.symm.trans (List.all_eq_true.mp plain x member))

theorem lacks_object {name : String} (plain : name.toList.all isPlain = true)
    (each : ∀ r ∈ rs, ∀ separator, x ∉ separator → ∀ p ∈ fields separator r, p.Lacks x) :
    ∀ p ∈ objectParts name fields rs, p.Lacks x := by
  intro p member
  rcases List.mem_cons.mp member with rfl | field
  · refine Part.lacks_mk (not_mem_of_plain foreign plain) (not_mem_of_plain foreign ?_)
    by_cases empty : rs = []
    · rw [if_pos empty]
      decide
    · rw [if_neg empty]
      decide
  · refine forall_listedParts (fun r among separator mark => each r among separator ?_) p field
    refine not_mem_of_plain foreign ?_
    rcases List.mem_pair.mp mark with rfl | rfl <;> decide

theorem lacks_values (names : ∀ r ∈ f.readings, x ∉ r.name.toList) :
    ∀ p ∈ objectParts "data" valueParts f.readings, p.Lacks x := by
  refine lacks_object foreign (by decide) fun r among separator unlike p member => ?_
  have colon : x ∉ ": ".toList := not_mem_of_plain foreign (by decide)
  have number : x ∉ (valueText r).toList := not_mem_of_bare foreign (isBare_valueText r)
  rw [List.mem_singleton.mp member]
  exact ⟨names r among, by simp only [List.mem_append, colon, number, unlike, or_self, not_false_eq_true]⟩

theorem lacks_units (names : ∀ r ∈ f.readings, x ∉ r.name.toList) (units : ∀ r ∈ f.readings, x ∉ r.unit.toList) :
    ∀ p ∈ objectParts "units" unitParts f.readings, p.Lacks x := by
  refine lacks_object foreign (by decide) fun r among separator unlike p member => ?_
  rcases List.mem_pair.mp member with rfl | rfl
  · exact Part.lacks_mk (names r among) (not_mem_of_plain foreign (by decide))
  · exact ⟨units r among, unlike⟩

theorem lacks_status : ∀ p ∈ f.statusParts, p.Lacks x := by
  have hex := not_mem_of_bare foreign (Numeral.isBare_hex f.status.bits.toNat)
  intro p member
  simp only [statusParts, List.mem_cons, List.not_mem_nil, or_false] at member
  rcases member with rfl | rfl | rfl
  · exact Part.lacks_mk (not_mem_of_plain foreign (by decide)) (not_mem_of_plain foreign (by decide))
  · exact Part.lacks_mk (not_mem_of_plain foreign (by decide)) (not_mem_of_plain foreign (by decide))
  · exact Part.lacks_mk hex (not_mem_of_plain foreign (by decide))

theorem lacks_head (absent : ∀ r ∈ f.readings, x ∉ r.name.toList ∧ x ∉ r.unit.toList) :
    ∀ p ∈ f.headParts, p.Lacks x := by
  have names := fun r among => (absent r among).1
  have units := fun r among => (absent r among).2
  simp only [headParts, List.forall_mem_append]
  exact ⟨⟨lacks_values foreign names, lacks_units foreign names units⟩, lacks_status foreign⟩

end

/-! ### Frames -/

theorem decode?_text (unquoted : ∀ r ∈ f.readings, '"' ∉ r.name.toList ∧ '"' ∉ r.unit.toList) :
    decode? f.text = some f.contents := by
  have number := Numeral.isBare_signed f.time.toMillis
  have time : ∀ p ∈ f.timeParts, p.Lacks '"' := by
    have absent : '"' ∉ (Numeral.signed f.time.toMillis).toList := not_mem_of_bare (by decide) number
    intro p member
    rw [List.mem_singleton.mp member]
    exact Part.lacks_mk (by decide) (by simp [absent])
  have unquoted_parts : ∀ p ∈ f.parts, p.Lacks '"' := by
    rw [parts, List.forall_mem_append]
    exact ⟨lacks_head (by decide) unquoted, time⟩
  have read : objects (Part.ofText f.text.toList) = objects f.parts := by
    rw [toList_text, Part.ofText_chars (by decide) unquoted_parts]
  have millis : (Part.mk "timestamp_ms".toList
      (": ".toList ++ (Numeral.signed f.time.toMillis).toList ++ "\x7d\n".toList)).bare =
        (Numeral.signed f.time.toMillis).toList :=
    bare_of_number number (by decide)
  unfold decode?
  rw [read, objects_parts]
  simp only [objectParts, statusParts, timeParts]
  rw [millis, Numeral.signed?_signed, zipWith_listed, Numeral.hexValue_hex, UInt32.ofNat_toNat]
  rfl

theorem toList_line (unbroken : ∀ r ∈ f.readings, '\n' ∉ r.name.toList ∧ '\n' ∉ r.unit.toList) :
    ∃ body, f.text.toList = body ++ ['\n'] ∧ '\n' ∉ body := by
  have head : '\n' ∉ f.headParts.flatMap Part.chars := by
    rw [List.mem_flatMap]
    rintro ⟨p, member, within⟩
    exact (lacks_head (by decide) unbroken p member).chars (by decide) within
  have number : '\n' ∉ (Numeral.signed f.time.toMillis).toList :=
    not_mem_of_bare (by decide) (Numeral.isBare_signed f.time.toMillis)
  refine ⟨['\x7b'] ++ f.headParts.flatMap Part.chars ++ "\"timestamp_ms\": ".toList ++
    (Numeral.signed f.time.toMillis).toList ++ ['\x7d'], ?_, ?_⟩
  · rw [toList_text, parts, List.flatMap_append]
    simp [timeParts, Part.chars]
  · simp [head, number]

/-- What a frame holds can be read from the text that it is rendered to, whatever its names and
    units are, if there are no quotes in them. If there are no line breaks in them either, the
    only one in the text is its last byte. -/
theorem render_decodes {f : Frame} {text : String} (rendered : f.render = .ok text)
    (unquoted : ∀ r ∈ f.readings, '"' ∉ r.name.toList ∧ '"' ∉ r.unit.toList) :
    decode? text = some f.contents ∧
    ((∀ r ∈ f.readings, '\n' ∉ r.name.toList ∧ '\n' ∉ r.unit.toList) →
      (Utf8.encode text).count 10 = 1 ∧ (Utf8.encode text).getLast? = some 10) := by
  obtain rfl := text_of_render rendered
  refine ⟨decode?_text unquoted, fun unbroken => ?_⟩
  obtain ⟨body, split, absent⟩ := toList_line unbroken
  constructor
  · have count := Utf8.count_encode (x := '\n') (by decide) f.text
    rw [split, List.count_append, List.count_eq_zero_of_not_mem absent] at count
    exact count
  · rw [Utf8.encode, split, List.flatMap_append]
    exact List.getLast?_concat

/-- Two readings of one name, which has all marks of a frame in it, and the second without a
    finite value. -/
def tangled : Frame where
  readings :=
    [{ name := "a: \x7b, \x7d", value := ⟨0x41ac0000⟩, unit := "%" },
     { name := "a: \x7b, \x7d", value := ⟨0x7f800000⟩, unit := "null" }]
  status := .gasReading
  time := ⟨-1500⟩

theorem render_decodes_tangled :
    tangled.render = .ok tangled.text ∧
    decode? tangled.text = some
      { readings := [("a: \x7b, \x7d", some "21.50", "%"), ("a: \x7b, \x7d", none, "null")]
        status := 0x2000
        millis := -1 } ∧
    (Utf8.encode tangled.text).count 10 = 1 := by
  have rendered : tangled.render = .ok tangled.text := by decide +kernel
  have told : tangled.contents =
      { readings := [("a: \x7b, \x7d", some "21.50", "%"), ("a: \x7b, \x7d", none, "null")]
        status := 0x2000
        millis := -1 } := by
    decide +kernel
  obtain ⟨decodes, line⟩ := render_decodes rendered (by decide)
  exact ⟨rendered, told ▸ decodes, (line (by decide)).1⟩

end AirMonitor.Frame
