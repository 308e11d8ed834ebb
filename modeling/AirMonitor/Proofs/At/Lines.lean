import AirMonitor.Proofs.At.RoundTrip

/-!
The lines of a response are read one by one. Empty lines say nothing, and the others are
the parts between the bytes that break lines (`solidLines_eq`). So a response that is
joined from two at line breaks has the lines of the first and then those of the second,
whatever the breaks are and however the quotes and lengths of either go wrong
(`tokenize_joined`).
-/
namespace AirMonitor.At

/-! ### What a response has -/

/-- The lines of a reply that have a preamble and tokens, however many there are. -/
def readableLines (raw : Bytes) : List ResponseLine :=
  (splitLines raw).filterMap fun bytes =>
    match LineReading.ofBytes bytes with
    | .line l => some l
    | .noise | .malformed => none

/-- How many lines of a reply have broken quoting. -/
def malformedLines (raw : Bytes) : Nat := (splitLines raw).countP fun line => LineReading.ofBytes line = .malformed

theorem tokenize_eq (raw : Bytes) :
    tokenize raw =
      ⟨(readableLines raw).take lineRoom, (readableLines raw).length - lineRoom, malformedLines raw⟩ := by
  have all (line? : LineReading → Option ResponseLine) (line : ∀ l, line? (.line l) = some l) (noise : line? .noise = none)
      (malformed : line? .malformed = none) :
      ((splitLines raw).map LineReading.ofBytes).filterMap line? = readableLines raw := by
    rw [readableLines, List.filterMap_map]
    refine List.filterMap_congr fun bytes _ => ?_
    rw [Function.comp_apply]
    cases LineReading.ofBytes bytes <;> simp [line, noise, malformed]
  have broken : ((splitLines raw).map LineReading.ofBytes).count .malformed = malformedLines raw := by
    rw [List.count, List.countP_map]
    rfl
  rw [tokenize, all _ (by simp) (by simp) (by simp), broken]

theorem lines_tokenize (raw : Bytes) : (tokenize raw).lines = (readableLines raw).take lineRoom := by
  rw [tokenize_eq]

/-! ### Lines that are not empty -/

/-- The lines of a response that are not empty. -/
def solidLines (raw : Bytes) : List Bytes := (splitLines raw).filter (!·.isEmpty)

section
variable {b : UInt8} {front rest breaks : Bytes}

/-- A byte within a line stands at the head of the first line. -/
theorem splitLines_inner (inner : isBreak b = false) :
    splitLines (b :: rest) = (b :: (splitLines rest).headD []) :: (splitLines rest).tail := by
  rw [splitLines_cons inner]
  cases splitLines rest <;> rfl

/-- A break at the front ends an empty line. -/
theorem splitLines_break (ends : isBreak b = true) (rest : Bytes) :
    ∃ others, splitLines (b :: rest) = [] :: others ∧ others.filter (!·.isEmpty) = solidLines rest := by
  by_cases pair : b = 13 ∧ ∃ behind, rest = 10 :: behind
  · obtain ⟨rfl, behind, rfl⟩ := pair
    exact ⟨splitLines behind, rfl, by simp [solidLines, splitLines, isBreak]⟩
  · refine ⟨splitLines rest, ?_, rfl⟩
    rw [splitLines, if_pos ends]
    exact fun behind first second => pair ⟨first, behind, second⟩

theorem filter_solid (lines : List Bytes) :
    lines.filter (!·.isEmpty) = [lines.headD []].filter (!·.isEmpty) ++ lines.tail.filter (!·.isEmpty) := by
  cases lines with
  | nil => rfl
  | cons line lines =>
    rw [List.headD_cons, List.tail_cons, ← List.filter_append]
    rfl

/-- The first line is the first part between breaks, and the same lines that are not empty come behind it. -/
theorem splitLines_parts (raw : Bytes) :
    (splitLines raw).headD [] = (raw.splitOnP isBreak).headD [] ∧
      (splitLines raw).tail.filter (!·.isEmpty) = (raw.splitOnP isBreak).tail.filter (!·.isEmpty) := by
  induction raw with
  | nil => exact ⟨rfl, rfl⟩
  | cons b bs ih =>
    obtain ⟨same_head, same_tail⟩ := ih
    rw [List.splitOnP_cons_eq_if_modifyHead]
    cases ends : isBreak b with
    | true =>
      obtain ⟨others, split, solid⟩ := splitLines_break ends bs
      rw [split, if_pos rfl]
      refine ⟨rfl, ?_⟩
      rw [List.tail_cons, List.tail_cons, solid, solidLines, filter_solid (splitLines bs), same_head, same_tail,
        ← filter_solid]
    | false =>
      rw [splitLines_inner ends, if_neg Bool.false_ne_true, same_head]
      obtain ⟨part, parts, split⟩ := List.exists_cons_of_ne_nil (List.splitOnP_ne_nil (p := isBreak) bs)
      rw [split] at same_tail ⊢
      exact ⟨rfl, same_tail⟩

theorem solidLines_eq (raw : Bytes) : solidLines raw = (raw.splitOnP isBreak).filter (!·.isEmpty) := by
  obtain ⟨same_head, same_tail⟩ := splitLines_parts raw
  rw [solidLines, filter_solid, same_head, same_tail, ← filter_solid]

theorem solidLines_break (ends : isBreak b = true) :
    solidLines (front ++ b :: rest) = solidLines front ++ solidLines rest := by
  rw [solidLines_eq, List.splitOnP_append_cons front rest ends, List.filter_append, ← solidLines_eq, ← solidLines_eq]

/-- Breaks between two responses leave the lines of each. -/
theorem solidLines_joined (some_break : breaks ≠ []) (each : ∀ b ∈ breaks, isBreak b = true) :
    solidLines (front ++ (breaks ++ rest)) = solidLines front ++ solidLines rest := by
  obtain ⟨b, more, rfl⟩ := List.exists_cons_of_ne_nil some_break
  have others : ∀ more : Bytes, (∀ b ∈ more, isBreak b = true) → solidLines (more ++ rest) = solidLines rest := by
    intro more each
    induction more with
    | nil => rfl
    | cons b more ih =>
      rw [List.cons_append, ← List.nil_append (b :: (more ++ rest)), solidLines_break (each b (by simp)),
        ih fun b member => each b (List.mem_cons_of_mem _ member)]
      rfl
  rw [List.cons_append, solidLines_break (each b (by simp)), others more fun b member => each b (List.mem_cons_of_mem _ member)]

/-- An empty line is noise. -/
theorem readableLines_eq (raw : Bytes) :
    readableLines raw = (solidLines raw).filterMap fun bytes =>
      match LineReading.ofBytes bytes with
      | .line l => some l
      | .noise | .malformed => none := by
  rw [solidLines, List.filterMap_filter]
  refine List.filterMap_congr fun bytes _ => ?_
  cases bytes <;> rfl

theorem malformedLines_eq (raw : Bytes) :
    malformedLines raw = (solidLines raw).countP fun line => LineReading.ofBytes line = .malformed := by
  rw [solidLines, List.countP_filter]
  refine List.countP_congr fun bytes _ => ?_
  cases bytes <;> simp [LineReading.ofBytes, trim]

theorem readableLines_joined (some_break : breaks ≠ []) (each : ∀ b ∈ breaks, isBreak b = true) :
    readableLines (front ++ (breaks ++ rest)) = readableLines front ++ readableLines rest := by
  simp only [readableLines_eq, solidLines_joined some_break each, List.filterMap_append]

theorem malformedLines_joined (some_break : breaks ≠ []) (each : ∀ b ∈ breaks, isBreak b = true) :
    malformedLines (front ++ (breaks ++ rest)) = malformedLines front + malformedLines rest := by
  simp only [malformedLines_eq, solidLines_joined some_break each, List.countP_append]

/-- A response that is joined from two at line breaks is read as the two are read: the lines of
    the first come ahead of those of the second, as far as there is room, the others and the
    malformed ones are counted together, and it does not matter what the breaks are. -/
theorem tokenize_joined (front rest : Bytes) (some_break : breaks ≠ []) (each : ∀ b ∈ breaks, isBreak b = true) :
    let first := tokenize front
    let second := tokenize rest
    let joined := tokenize (front ++ (breaks ++ rest))
    joined.lines = (first.lines ++ second.lines).take lineRoom ∧
    joined.malformed = first.malformed + second.malformed ∧
    joined.lines.length + joined.dropped =
      (first.lines.length + first.dropped) + (second.lines.length + second.dropped) ∧
    readableLines (front ++ (breaks ++ rest)) = readableLines front ++ readableLines rest ∧
    ∀ others : Bytes, others ≠ [] → (∀ b ∈ others, isBreak b = true) →
      tokenize (front ++ (others ++ rest)) = joined := by
  intro first second joined
  have lines : readableLines (front ++ (breaks ++ rest)) = readableLines front ++ readableLines rest :=
    readableLines_joined some_break each
  have malformed : malformedLines (front ++ (breaks ++ rest)) = malformedLines front + malformedLines rest :=
    malformedLines_joined some_break each
  have counted : ∀ raw, (tokenize raw).lines.length + (tokenize raw).dropped = (readableLines raw).length := by
    intro raw
    simp only [tokenize_eq, List.length_take]
    omega
  refine ⟨?_, ?_, ?_, lines, ?_⟩
  · show (tokenize (front ++ (breaks ++ rest))).lines = ((tokenize front).lines ++ (tokenize rest).lines).take lineRoom
    rw [lines_tokenize, lines_tokenize, lines_tokenize, lines]
    have room : lineRoom - (readableLines front).length =
        min (lineRoom - min lineRoom (readableLines front).length) lineRoom := by omega
    rw [List.take_append, List.take_append, List.take_take, List.take_take, List.length_take, Nat.min_self, ← room]
  · simp only [joined, first, second, tokenize_eq, malformed]
  · rw [counted, counted, counted, lines, List.length_append]
  · intro others some_other each_other
    simp only [joined, tokenize_eq, lines, malformed, readableLines_joined some_other each_other,
      malformedLines_joined some_other each_other]

end

/-- Nine lines, and one that ends within quotes and with a carriage return. -/
def brokenOff : Bytes := (List.replicate 9 (Utf8.encode "A:1\n")).flatten ++ Utf8.encode "B:\"x\r"

/-- An empty line, a line, one that ends within quotes, and another line. -/
def resumed : Bytes := Utf8.encode "\nC:2\nD:\"3\nE:4"

theorem tokenize_joined_brokenOff :
    (([10] : Bytes) ≠ [] ∧ ∀ b ∈ ([10] : Bytes), isBreak b = true) ∧
      (tokenize (brokenOff ++ ([10] ++ resumed))).lines.map (·.preamble) = List.replicate 9 "A" ++ ["C"] ∧
      (tokenize (brokenOff ++ ([10] ++ resumed))).malformed = 1 + 1 ∧
      (tokenize (brokenOff ++ ([10] ++ resumed))).lines.length + (tokenize (brokenOff ++ ([10] ++ resumed))).dropped =
        (9 + 0) + (2 + 0) ∧
      tokenize (brokenOff ++ ([13, 10] ++ resumed)) = tokenize (brokenOff ++ ([10] ++ resumed)) := by
  have some_break : ([10] : Bytes) ≠ [] := by decide
  have each : ∀ b ∈ ([10] : Bytes), isBreak b = true := by simp [isBreak]
  obtain ⟨lines, malformed, counted, -, others⟩ := tokenize_joined brokenOff resumed some_break each
  have first : tokenize brokenOff = ⟨List.replicate 9 ⟨"A", [⟨"1", .bare, false⟩], false⟩, 0, 1⟩ := by decide +kernel
  have second : tokenize resumed = ⟨[⟨"C", [⟨"2", .bare, false⟩], false⟩, ⟨"E", [⟨"4", .bare, false⟩], false⟩], 0, 1⟩ := by
    decide +kernel
  refine ⟨⟨some_break, each⟩, ?_, ?_, ?_, others [13, 10] (by decide) (by simp [isBreak])⟩
  · rw [lines, first, second]
    rfl
  · rw [malformed, first, second]
  · rw [counted, first, second]
    rfl

end AirMonitor.At
