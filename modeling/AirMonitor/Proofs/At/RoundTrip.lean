import AirMonitor.Proofs.At.Rendering
import Mathlib.Data.List.Forall2

/-!
What is read, written and read again. Ten well-formed lines or fewer come back as they
were, and every line of a response of which nothing was cut is well formed, so the
whole lines of any response survive being rendered (`tokenize_render`).
-/
namespace AirMonitor.At

/-! ### Line breaks -/

section
variable {raw line rest : Bytes}

theorem splitLines_cons {b : UInt8} (inner : isBreak b = false) :
    splitLines (b :: rest) =
      match splitLines rest with
      | [] => [[b]]
      | l :: ls => (b :: l) :: ls := by
  have no_return : b ≠ 13 := by
    rintro rfl
    exact absurd inner (by decide)
  rw [splitLines]
  · cases splitLines rest <;> simp [inner]
  · exact fun _ same _ => no_return same

theorem splitLines_append (unbroken : Unbroken line) :
    splitLines (line ++ (lineBreak ++ rest)) = line :: splitLines rest := by
  induction line with
  | nil => rfl
  | cons b line ih =>
    rw [List.cons_append, splitLines_cons (unbroken b (by simp)),
      ih fun b within => unbroken b (List.mem_cons_of_mem _ within)]

theorem unbroken_of_mem_splitLines (member : line ∈ splitLines raw) : Unbroken line := by
  have nothing : Unbroken [] := fun _ within => nomatch within
  induction raw using splitLines.induct generalizing line with
  | case1 => cases member
  | case2 bs ih =>
    rcases List.mem_cons.mp member with rfl | later
    · exact nothing
    · exact ih later
  | case3 b bs _ breaks ih =>
    rw [splitLines, if_pos breaks] at member
    · rcases List.mem_cons.mp member with rfl | later
      · exact nothing
      · exact ih later
    · assumption
  | case4 b bs _ inner none ih =>
    rw [splitLines_cons (by simpa using inner), none] at member
    rw [List.mem_singleton.mp member]
    intro b' within
    rw [List.mem_singleton.mp within]
    simpa using inner
  | case5 b bs _ inner l ls some ih =>
    rw [splitLines_cons (by simpa using inner), some] at member
    rcases List.mem_cons.mp member with rfl | later
    · intro b' within
      rcases List.mem_cons.mp within with rfl | tail
      · simpa using inner
      · exact ih (by simp [some]) b' tail
    · exact ih (by simp [some, later])

end

theorem splitLines_render {lines : List ResponseLine} (formed : ∀ l ∈ lines, l.WellFormed) :
    splitLines (render lines) = lines.map ResponseLine.render := by
  induction lines with
  | nil => rfl
  | cons l lines ih =>
    rw [render, List.flatMap_cons, List.append_assoc, splitLines_append (ResponseLine.unbroken_render (formed l (by simp))),
      List.map_cons]
    congr 1
    exact ih fun l within => formed l (List.mem_cons_of_mem _ within)

/-! ### What was read -/

theorem forall₂_of_mapM {α β : Type} {read : α → Option β} {xs : List α} {ys : List β} (all : xs.mapM read = some ys) :
    List.Forall₂ (fun x y => read x = some y) xs ys := by
  induction xs generalizing ys with
  | nil =>
    obtain rfl := Option.some.inj all
    exact .nil
  | cons x xs ih =>
    rw [List.mapM_cons] at all
    obtain ⟨y, one, more⟩ := Option.bind_eq_some_iff.mp all
    obtain ⟨others, rest, joined⟩ := Option.bind_eq_some_iff.mp more
    obtain rfl := Option.some.inj joined
    exact .cons one (ih rest)

theorem getElem?_of_mapM {α β : Type} {read : α → Option β} {xs : List α} {ys : List β} (all : xs.mapM read = some ys)
    {place : Nat} {y : β} (found : ys[place]? = some y) : ∃ x, xs[place]? = some x ∧ read x = some y := by
  obtain ⟨lengths, each⟩ := List.forall₂_iff_get.mp (forall₂_of_mapM all)
  obtain ⟨inside, rfl⟩ := List.getElem?_eq_some_iff.mp found
  have inside' : place < xs.length := lengths ▸ inside
  exact ⟨xs[place], List.getElem?_eq_getElem inside', each place inside' inside⟩

theorem mem_of_mapM {α β : Type} {read : α → Option β} {xs : List α} {ys : List β} (all : xs.mapM read = some ys) {y : β}
    (member : y ∈ ys) : ∃ x ∈ xs, read x = some y := by
  obtain ⟨place, found⟩ := List.mem_iff_getElem?.mp member
  obtain ⟨x, found, one⟩ := getElem?_of_mapM all found
  exact ⟨x, List.mem_of_getElem? found, one⟩

namespace Token
variable {field : Bytes} {t : Token}

/-- A token is a value that stands in its field between quotes, or the whole field. -/
theorem ofField?_eq_some (reads : ofField? field = some t) :
    (∃ value ⊆ field, t = ofValue .quoted value) ∨
      (field ≠ [] ∧ field.head? ≠ some (ascii '"') ∧ t = ofValue .bare field) := by
  cases field with
  | nil => cases reads
  | cons b bs =>
    rw [ofField?_cons] at reads
    by_cases quote : b = ascii '"'
    · rw [if_pos quote] at reads
      obtain ⟨value, closes, rfl⟩ := Option.map_eq_some_iff.mp reads
      exact .inl ⟨value, List.subset_cons_of_subset b (unquote_subset (by decide) closes), rfl⟩
    · rw [if_neg quote] at reads
      exact .inr ⟨List.cons_ne_nil b bs, by simpa using quote, (Option.some.inj reads).symm⟩

theorem fits_of_ofField? (reads : ofField? field = some t) : (Utf8.encode t.text).length ≤ valueRoom := by
  rcases ofField?_eq_some reads with ⟨value, -, rfl⟩ | ⟨-, -, rfl⟩ <;> exact length_keep _

/-- A token of which nothing was cut is well formed. -/
theorem wellFormed_of_ofField? (reads : ofField? field = some t) (whole : t.truncated = false)
    (unbroken : Unbroken field) (tight : Tight field) (balanced : Balanced field)
    (no_comma : Hides (ascii ',') .outside field) (no_colon : Hides (ascii ':') .outside field) : t.WellFormed := by
  have fits := fits_of_ofField? reads
  rcases ofField?_eq_some reads with ⟨value, within, rfl⟩ | ⟨nonempty, unquoted, rfl⟩
  · have same : Utf8.encode (ofValue .quoted value).text = value := encode_keep whole
    refine ⟨whole, fits, ?_, ?_⟩
    · rw [same]
      exact fun b inside => unbroken b (within inside)
    · rw [show (ofValue .quoted value).kind = .quoted from rfl]
      exact fun bare => absurd bare (by decide)
  · have same : Utf8.encode (ofValue .bare field).text = field := encode_keep whole
    refine ⟨whole, fits, ?_, fun _ => ?_⟩
    · rwa [same]
    · rw [same]
      exact ⟨nonempty, unquoted, tight, balanced, no_comma, no_colon⟩

end Token

/-- A line that was read is made of the last two parts of it between colons. -/
theorem LineReading.ofBytes_eq_line {bytes : Bytes} {l : ResponseLine} (reads : ofBytes bytes = .line l) :
    Balanced bytes ∧ ∃ before preamble payload,
      splitUnquoted (ascii ':') .outside bytes = before ++ [preamble, payload] ∧ ∃ tokens ≠ [],
        (fields payload).mapM Token.ofField? = some tokens ∧ l = .ofParts preamble tokens := by
  rw [ofBytes] at reads
  by_cases blank : (trim bytes).isEmpty
  · rw [if_pos blank] at reads
    cases reads
  rw [if_neg blank] at reads
  by_cases balanced : Balanced bytes
  · rw [if_neg (not_not.mpr balanced)] at reads
    refine ⟨balanced, ?_⟩
    cases parts : (splitUnquoted (ascii ':') .outside bytes).reverse with
    | nil => simp [parts] at reads
    | cons payload before =>
      cases before with
      | nil => simp [parts] at reads
      | cons preamble before =>
        have parts' : splitUnquoted (ascii ':') .outside bytes = before.reverse ++ [preamble, payload] := by
          rw [← List.reverse_reverse (splitUnquoted _ _ _), parts]
          simp
        cases read : (fields payload).mapM Token.ofField? with
        | none => simp [parts, read] at reads
        | some tokens =>
          cases tokens with
          | nil => simp [parts, read] at reads
          | cons t ts =>
            simp only [parts, read, LineReading.line.injEq] at reads
            exact ⟨before.reverse, preamble, payload, parts', t :: ts, by simp, read, reads.symm⟩
  · rw [if_pos balanced] at reads
    cases reads

/-- The fields of a part between colons can stand in a line. -/
theorem mem_fields {payload field : Bytes} (member : field ∈ fields payload) :
    ∃ part ∈ splitUnquoted (ascii ',') .outside payload, field = trim part := by
  obtain ⟨within, -⟩ := List.mem_filter.mp member
  obtain ⟨part, among, rfl⟩ := List.mem_map.mp within
  exact ⟨part, among, rfl⟩

namespace ResponseLine
variable {bytes : Bytes} {l : ResponseLine}

theorem fits_of_ofBytes (reads : LineReading.ofBytes bytes = .line l) : l.Fits := by
  obtain ⟨-, -, preamble, payload, -, tokens, some_token, read, rfl⟩ := LineReading.ofBytes_eq_line reads
  refine ⟨length_keep preamble, ?_, List.length_take_le _ _, ?_⟩
  · obtain ⟨t, ts, rfl⟩ := List.exists_cons_of_ne_nil some_token
    simp [ofParts, tokenRoom]
  · intro t within
    obtain ⟨field, -, reads⟩ := mem_of_mapM read (List.mem_of_mem_take within)
    exact Token.fits_of_ofField? reads

/-- A line of which nothing was cut is well formed. -/
theorem wellFormed_of_ofBytes (unbroken : Unbroken bytes) (reads : LineReading.ofBytes bytes = .line l)
    (whole : l.truncated = false) : l.WellFormed := by
  have fits := fits_of_ofBytes reads
  obtain ⟨balanced, before, preamble, payload, parts, tokens, -, read, rfl⟩ := LineReading.ofBytes_eq_line reads
  have first : preamble ∈ splitUnquoted (ascii ':') .outside bytes := by simp [parts]
  have second : payload ∈ splitUnquoted (ascii ':') .outside bytes := by simp [parts]
  simp only [ofParts, Bool.or_eq_false_iff, List.any_eq_false, Bool.not_eq_true] at whole
  obtain ⟨⟨preamble_whole, tokens_whole⟩, few⟩ := whole
  have same : Utf8.encode (ofParts preamble tokens).preamble = preamble := encode_keep preamble_whole
  have all_whole : (ofParts preamble tokens).truncated = false := by
    simpa only [ofParts, preamble_whole, Bool.false_or, Bool.or_eq_false_iff, List.any_eq_false, Bool.not_eq_true]
      using ⟨tokens_whole, few⟩
  refine ⟨fits, all_whole, ?_, ?_, ?_, ?_⟩
  · rw [same]
    exact fun b within => unbroken b (subset_of_mem_split first within)
  · rw [same]
    exact balanced_of_mem_split (by decide) balanced first
  · rw [same]
    exact hides_of_mem_split first
  · intro t within
    have member : t ∈ tokens := List.mem_of_mem_take within
    obtain ⟨field, among, reads⟩ := mem_of_mapM read member
    obtain ⟨part, between, rfl⟩ := mem_fields among
    -- A field is cut out of the line twice, at the colons and at the commas, and then trimmed.
    refine Token.wellFormed_of_ofField? reads (tokens_whole t member) ?_ (tight_trim part) ?_ ?_ ?_
    · exact fun b inside => unbroken b (subset_of_mem_split second (subset_of_mem_split between (trim_subset part inside)))
    · exact balanced_trim (balanced_of_mem_split (by decide) (balanced_of_mem_split (by decide) balanced second) between)
    · exact hides_trim (hides_of_mem_split between)
    · exact hides_trim (hides_other_of_mem_split (by decide) (hides_of_mem_split second) between)

end ResponseLine

/-! ### Responses -/

/-- The lines from which nothing was cut. -/
def Document.whole (d : Document) : List ResponseLine := d.lines.filter (!·.truncated)

theorem line_of_mem_tokenize {raw : Bytes} {l : ResponseLine} (member : l ∈ (tokenize raw).lines) :
    ∃ line ∈ splitLines raw, LineReading.ofBytes line = .line l := by
  obtain ⟨reading, among, kept⟩ := List.mem_filterMap.mp (List.mem_of_mem_take member)
  obtain ⟨line, within, rfl⟩ := List.mem_map.mp among
  refine ⟨line, within, ?_⟩
  cases reads : LineReading.ofBytes line with
  | line l' =>
    rw [reads] at kept
    rw [Option.some.inj kept]
  | noise => simp [reads] at kept
  | malformed => simp [reads] at kept

theorem mem_tokenize {raw : Bytes} {l : ResponseLine} (member : l ∈ (tokenize raw).lines) :
    ∃ bytes, Unbroken bytes ∧ LineReading.ofBytes bytes = .line l := by
  obtain ⟨line, within, reads⟩ := line_of_mem_tokenize member
  exact ⟨line, unbroken_of_mem_splitLines within, reads⟩

theorem tokenize_render_of_wellFormed {lines : List ResponseLine} (few : lines.length ≤ lineRoom)
    (formed : ∀ l ∈ lines, l.WellFormed) : tokenize (render lines) = ⟨lines, 0, 0⟩ := by
  have readings : (splitLines (render lines)).map LineReading.ofBytes = lines.map LineReading.line := by
    rw [splitLines_render formed, List.map_map]
    exact List.map_congr_left fun l within => ResponseLine.ofBytes_render (formed l within)
  have none_malformed : (lines.map LineReading.line).count .malformed = 0 := by
    simp [List.count_eq_zero]
  rw [tokenize, readings, none_malformed, List.filterMap_map]
  simp [List.take_of_length_le few, Nat.sub_eq_zero_of_le few]

/-- Well-formed lines come back from what they are rendered as. What is kept of any
    response fits, and its whole lines are well formed and come back likewise. -/
theorem tokenize_render :
    (∀ lines : List ResponseLine, lines.length ≤ lineRoom → (∀ l ∈ lines, l.WellFormed) →
      tokenize (render lines) = ⟨lines, 0, 0⟩) ∧
    ∀ raw : Bytes,
      (tokenize raw).lines.length ≤ lineRoom ∧ (∀ l ∈ (tokenize raw).lines, l.Fits) ∧
      (∀ l ∈ (tokenize raw).whole, l.WellFormed) ∧
      tokenize (render (tokenize raw).whole) = ⟨(tokenize raw).whole, 0, 0⟩ := by
  refine ⟨fun lines few formed => tokenize_render_of_wellFormed few formed, fun raw => ?_⟩
  have few : (tokenize raw).lines.length ≤ lineRoom := List.length_take_le _ _
  have formed : ∀ l ∈ (tokenize raw).whole, l.WellFormed := by
    intro l within
    obtain ⟨member, uncut⟩ := List.mem_filter.mp within
    obtain ⟨bytes, unbroken, reads⟩ := mem_tokenize member
    exact ResponseLine.wellFormed_of_ofBytes unbroken reads (by simpa using uncut)
  refine ⟨few, ?_, formed, tokenize_render_of_wellFormed ((List.length_filter_le _ _).trans few) formed⟩
  intro l member
  obtain ⟨bytes, -, reads⟩ := mem_tokenize member
  exact ResponseLine.fits_of_ofBytes reads

/-- Separators and escapes in quotes, quotes in a bare value and in a preamble, a value of 24 bytes. -/
def separatorsInQuotes : List ResponseLine :=
  [⟨"+IPD \":\"", [⟨"a,b:\"\\", .quoted, false⟩, ⟨"1\",:\\\"\"2", .bare, false⟩, ⟨"", .quoted, false⟩], false⟩,
   ⟨"", [⟨"abcdefghijklmnopqrstuvwx", .quoted, false⟩], false⟩]

theorem tokenize_render_separatorsInQuotes :
    (separatorsInQuotes.length ≤ lineRoom ∧ ∀ l ∈ separatorsInQuotes, l.WellFormed) ∧
      tokenize (render separatorsInQuotes) = ⟨separatorsInQuotes, 0, 0⟩ := by
  have few : separatorsInQuotes.length ≤ lineRoom := by decide
  have formed : ∀ l ∈ separatorsInQuotes, l.WellFormed := by decide +kernel
  exact ⟨⟨few, formed⟩, tokenize_render.1 separatorsInQuotes few formed⟩

end AirMonitor.At
