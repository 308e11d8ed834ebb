import AirMonitor.Proofs.At.Truncation
import Mathlib.Data.Nat.Find

/-!
One scan of a line and the scans of its parts. The splits at colons and at commas and the
reading of a quoted field each begin a scan of their own. They begin it where the scan of
the whole line stands outside quotes, or right behind an opening quote, and from there on
it goes the same way. So a line is split where its own scan says (`splitUnquoted_eq`), a
quoted field closes if the line does (`exists_closes`), and a line is malformed for one of
two reasons only (`scans_agree`).
-/
namespace AirMonitor.At

/-! ### Positions -/

/-- Where the scan of a whole line stands ahead of a position. -/
def quotingAt (bs : Bytes) (i : Nat) : Quoting := .scan .outside (bs.take i)

/-- A separator stands at the position, and the scan of the whole line is outside quotes there. -/
def SeparatesAt (separator : UInt8) (bs : Bytes) (i : Nat) : Prop :=
  bs[i]? = some separator ∧ quotingAt bs i = .outside

instance (separator : UInt8) (bs : Bytes) (i : Nat) : Decidable (SeparatesAt separator bs i) :=
  inferInstanceAs (Decidable (_ ∧ _))

/-- The last of these positions. -/
def LastAt (separator : UInt8) (line : Bytes) (i : Nat) : Prop :=
  SeparatesAt separator line i ∧ ∀ k, SeparatesAt separator line k → k ≤ i

/-- The parts of a line from a position on, between the separators that its scan finds there. -/
def partsFrom (separator : UInt8) (line : Bytes) (start : Nat) : List Bytes :=
  (((line.drop start).zipIdx start).splitOnP fun place => decide (SeparatesAt separator line place.2)).map (·.map Prod.fst)

/-- A quote closes at the position: a scan that begins in a given place stands inside there,
    and not behind a backslash. -/
def Closes (q : Quoting) (bs : Bytes) (j : Nat) : Prop := bs[j]? = some (ascii '"') ∧ q.scan (bs.take j) = .inside

instance (q : Quoting) (bs : Bytes) (j : Nat) : Decidable (Closes q bs j) := inferInstanceAs (Decidable (_ ∧ _))

/-- The first of these positions. -/
def FirstCloses (q : Quoting) (bs : Bytes) (j : Nat) : Prop := Closes q bs j ∧ ∀ k < j, ¬ Closes q bs k

instance (q : Quoting) (bs : Bytes) (j : Nat) : Decidable (FirstCloses q bs j) :=
  inferInstanceAs (Decidable (_ ∧ ∀ k < j, _))

/-- A field begins with a quote and goes on behind the first quote that closes. -/
def Trails (field : Bytes) : Prop :=
  field.head? = some (ascii '"') ∧ ∃ j, FirstCloses .outside field j ∧ j + 1 < field.length

section
variable {separator b : UInt8} {q : Quoting} {line front rest bs field : Bytes} {i j : Nat}

theorem separatesAt_iff :
    SeparatesAt separator line i ↔
      ∃ before after, line = before ++ separator :: after ∧ before.length = i ∧ Balanced before := by
  constructor
  · rintro ⟨found, outside⟩
    obtain ⟨inside, rfl⟩ := List.getElem?_eq_some_iff.mp found
    refine ⟨line.take i, line.drop (i + 1), ?_, List.length_take_of_le inside.le, outside⟩
    rw [← List.drop_eq_getElem_cons inside, List.take_append_drop]
  · rintro ⟨before, after, rfl, rfl, balanced⟩
    refine ⟨by simp, ?_⟩
    rwa [quotingAt, List.take_left]

theorem hides_iff_separatesAt : Hides separator .outside line ↔ ∀ k, ¬ SeparatesAt separator line k := by
  rw [hides_iff]
  constructor
  · intro within k separates
    obtain ⟨before, after, whole, -, balanced⟩ := separatesAt_iff.mp separates
    exact within before after whole balanced
  · intro nowhere before after whole balanced
    exact nowhere before.length (separatesAt_iff.mpr ⟨before, after, whole, rfl, balanced⟩)

/-! ### Splitting where the scan of the whole line says -/

theorem separatesAt_append (rest : Bytes) (stands : Quoting.scan .outside front = q) :
    SeparatesAt separator (front ++ b :: rest) front.length ↔ q = .outside ∧ b = separator := by
  rw [SeparatesAt, quotingAt, List.take_left, stands, List.getElem?_append_right le_rfl, Nat.sub_self,
    List.getElem?_cons_zero, Option.some_inj, and_comm]

/-- A split that begins behind the front of a line, in the place where the front leads, finds
    the separators that the scan of the whole line finds. -/
theorem splitUnquoted_eq (unlike : separator ≠ ascii '"') (rest : Bytes) (stands : Quoting.scan .outside front = q) :
    splitUnquoted separator q rest = partsFrom separator (front ++ rest) front.length := by
  induction rest generalizing front q with
  | nil => simp [splitUnquoted, partsFrom]
  | cons b rest ih =>
    have onward : Quoting.scan .outside (front ++ [b]) = q.step b := by
      rw [Quoting.scan_append, stands]
      rfl
    have tail := ih onward
    rw [List.append_assoc, List.singleton_append, List.length_append, List.length_singleton, partsFrom,
      List.drop_length_add_append, List.drop_one, List.tail_cons] at tail
    rw [splitUnquoted, partsFrom, List.drop_left, List.zipIdx_cons, List.splitOnP_cons_eq_if_modifyHead]
    by_cases here : q = .outside ∧ b = separator
    · have separates := (separatesAt_append rest stands).mpr here
      obtain ⟨rfl, rfl⟩ := here
      rw [Quoting.step_outside unlike] at tail
      rw [if_pos ⟨rfl, rfl⟩, if_pos (decide_eq_true separates), List.map_cons, tail, List.map_nil]
    · have passes := mt (separatesAt_append rest stands).mp here
      obtain ⟨part, parts, split⟩ := List.exists_cons_of_ne_nil
        (List.splitOnP_ne_nil (fun place => decide (SeparatesAt separator (front ++ b :: rest) place.2))
          (rest.zipIdx (front.length + 1)))
      rw [if_neg here, if_neg (by simpa using passes), tail, split]
      rfl

/-! ### The last separator -/

theorem LastAt.unique (last : LastAt separator line i) (last' : LastAt separator line j) : i = j :=
  le_antisymm (last'.2 i last.1) (last.2 j last'.1)

theorem exists_lastAt (found : ∃ k, SeparatesAt separator line k) : ∃ i, LastAt separator line i := by
  have inside : ∀ k, SeparatesAt separator line k → k ≤ line.length := by
    rintro k ⟨found, -⟩
    exact (List.getElem?_eq_some_iff.mp found).1.le
  obtain ⟨k, separates⟩ := found
  refine ⟨Nat.findGreatest (SeparatesAt separator line) line.length, ?_, ?_⟩
  · exact Nat.findGreatest_spec (inside k separates) separates
  · exact fun k separates => Nat.le_findGreatest (inside k separates) separates

theorem splitUnquoted_balanced (unlike : separator ≠ ascii '"') (balanced : Balanced front) :
    splitUnquoted separator .outside (front ++ separator :: rest) =
      splitUnquoted separator .outside front ++ splitUnquoted separator .outside rest := by
  revert balanced
  refine splitUnquoted_induction (motive := fun bs parts => Balanced bs →
    splitUnquoted separator .outside (bs ++ separator :: rest) = parts ++ splitUnquoted separator .outside rest) ?_ ?_ front
  · intro bs hidden balanced
    rw [splitUnquoted_append hidden balanced, List.singleton_append]
  · intro part bs hidden ends onward balanced
    rw [balanced_append ends, balanced_cons unlike] at balanced
    rw [List.append_assoc, List.cons_append, splitUnquoted_append hidden ends, onward balanced, List.cons_append]

/-- Behind the last separator stands the last part. -/
theorem LastAt.split (unlike : separator ≠ ascii '"') (last : LastAt separator line i) :
    splitUnquoted separator .outside line = splitUnquoted separator .outside (line.take i) ++ [line.drop (i + 1)] := by
  obtain ⟨before, after, rfl, rfl, balanced⟩ := separatesAt_iff.mp last.1
  have hidden : Hides separator .outside after := by
    rw [hides_iff]
    rintro front rest rfl outside
    have further : (before ++ separator :: front).length ≤ before.length := by
      refine last.2 _ (separatesAt_iff.mpr ⟨before ++ separator :: front, rest, by simp, rfl, ?_⟩)
      rwa [balanced_append balanced, balanced_cons unlike]
    rw [List.length_append, List.length_cons] at further
    omega
  rw [splitUnquoted_balanced unlike balanced, splitUnquoted_of_hides hidden, List.take_left, List.drop_length_add_append,
    List.drop_one, List.tail_cons]

/-- What stands behind a separator is split for another one as the scan of the whole line says. -/
theorem SeparatesAt.parts {other : UInt8} (separates : SeparatesAt separator line i) (unlike : separator ≠ ascii '"')
    (unlike' : other ≠ ascii '"') :
    splitUnquoted other .outside (line.drop (i + 1)) = partsFrom other line (i + 1) := by
  obtain ⟨before, after, rfl, rfl, balanced⟩ := separatesAt_iff.mp separates
  have stands : Quoting.scan .outside (before ++ [separator]) = .outside := by
    rw [Quoting.scan_append, show Quoting.scan .outside before = .outside from balanced]
    exact Quoting.step_outside unlike
  have split := splitUnquoted_eq unlike' after stands
  rw [List.append_assoc, List.singleton_append, List.length_append, List.length_singleton] at split
  rw [← split, List.drop_length_add_append, List.drop_one, List.tail_cons]

theorem SeparatesAt.balanced_drop (separates : SeparatesAt separator line i) (unlike : separator ≠ ascii '"')
    (balanced : Balanced line) : Balanced (line.drop (i + 1)) := by
  obtain ⟨before, after, rfl, rfl, front⟩ := separatesAt_iff.mp separates
  rw [balanced_append front, balanced_cons unlike] at balanced
  rwa [List.drop_length_add_append, List.drop_one, List.tail_cons]

/-! ### The closing quote -/

theorem closes_zero : Closes q (b :: bs) 0 ↔ b = ascii '"' ∧ q = .inside := by
  simp [Closes]

theorem closes_succ : Closes q (b :: bs) (j + 1) ↔ Closes (q.step b) bs j := by
  simp [Closes]

theorem FirstCloses.unique (first : FirstCloses q bs i) (first' : FirstCloses q bs j) : i = j :=
  le_antisymm (not_lt.mp fun less => first.2 j less first'.1) (not_lt.mp fun less => first'.2 i less first.1)

theorem firstCloses_succ (stays : ¬ Closes q (b :: bs) 0) :
    FirstCloses q (b :: bs) (j + 1) ↔ FirstCloses (q.step b) bs j := by
  rw [FirstCloses, closes_succ, FirstCloses, and_congr_right_iff]
  intro _
  constructor
  · exact fun earlier k less => closes_succ.not.mp (earlier (k + 1) (Nat.succ_lt_succ less))
  · intro earlier k less
    cases k with
    | zero => exact stays
    | succ k => exact closes_succ.not.mpr (earlier k (Nat.lt_of_succ_lt_succ less))

theorem firstCloses_zero (closes : Closes q bs 0) : FirstCloses q bs j ↔ j = 0 := by
  have here : FirstCloses q bs 0 := ⟨closes, fun _ less => absurd less (Nat.not_lt_zero _)⟩
  constructor
  · exact fun first => first.unique here
  · rintro rfl
    exact here

/-- A scan that begins inside and ends outside passes a quote that closes. -/
theorem exists_closes (within : q ≠ .outside) (ends : q.scan bs = .outside) : ∃ j, Closes q bs j := by
  induction bs generalizing q with
  | nil => exact absurd ends within
  | cons b bs ih =>
    by_cases closes : Closes q (b :: bs) 0
    · exact ⟨0, closes⟩
    · have stays : q.step b ≠ .outside := by
        rw [closes_zero] at closes
        cases q with
        | outside => exact absurd rfl within
        | inside =>
          rw [Quoting.step, if_neg fun quote => closes ⟨quote, rfl⟩]
          split <;> decide
        | escaped =>
          rw [Quoting.step]
          decide
      obtain ⟨j, closes⟩ := ih stays ends
      exact ⟨j + 1, closes_succ.mpr closes⟩

/-- The quote that a field begins with is closed again. -/
theorem exists_closes_of_head (balanced : Balanced field) (opens : field.head? = some (ascii '"')) :
    ∃ j, Closes .outside field j := by
  obtain ⟨bs, rfl⟩ := List.head?_eq_some_iff.mp opens
  obtain ⟨j, closes⟩ : ∃ j, Closes .inside bs j := exists_closes (by decide) balanced
  exact ⟨j + 1, closes_succ.mpr closes⟩

theorem exists_firstCloses (closes : ∃ j, Closes q bs j) : ∃ j, FirstCloses q bs j :=
  ⟨Nat.find closes, Nat.find_spec closes, fun _ less => Nat.find_min closes less⟩

/-- Something stands behind the first quote that closes, or none does. -/
def GoesOn (q : Quoting) (bs : Bytes) : Prop := ∀ j, FirstCloses q bs j → j + 1 < bs.length

theorem goesOn_cons (stays : ¬ Closes q (b :: bs) 0) : GoesOn q (b :: bs) ↔ GoesOn (q.step b) bs := by
  constructor
  · exact fun goes j first => Nat.lt_of_succ_lt_succ (goes (j + 1) ((firstCloses_succ stays).mpr first))
  · intro goes j first
    cases j with
    | zero => exact absurd first.1 stays
    | succ j => exact Nat.succ_lt_succ (goes j ((firstCloses_succ stays).mp first))

theorem goesOn_iff_ne_nil (closes : Closes q (b :: bs) 0) : GoesOn q (b :: bs) ↔ bs ≠ [] := by
  simp [GoesOn, firstCloses_zero closes, List.length_pos_iff]

theorem unquote_eq_none_iff (within : q ≠ .outside) : unquote q bs = none ↔ GoesOn q bs := by
  induction bs generalizing q with
  | nil => simp [unquote, GoesOn, FirstCloses, Closes]
  | cons b bs ih =>
    cases q with
    | outside => exact absurd rfl within
    | escaped =>
      rw [unquote_escaped, Option.map_eq_none_iff, goesOn_cons (by simp [closes_zero])]
      exact ih (by decide)
    | inside =>
      rw [unquote_inside]
      by_cases slash : b = ascii '\\'
      · have stays : ¬ Closes .inside (b :: bs) 0 := by
          rw [closes_zero, slash]
          decide
        rw [if_pos slash, goesOn_cons stays, Quoting.step, if_pos slash]
        exact ih (by decide)
      · by_cases quote : b = ascii '"'
        · rw [if_neg slash, if_pos quote, goesOn_iff_ne_nil (closes_zero.mpr ⟨quote, rfl⟩)]
          cases bs <;> simp
        · have stays : ¬ Closes .inside (b :: bs) 0 := fun closes => quote (closes_zero.mp closes).1
          rw [if_neg slash, if_neg quote, Option.map_eq_none_iff, goesOn_cons stays, Quoting.step, if_neg slash, if_neg quote]
          exact ih (by decide)

theorem Trails.ne_nil (trails : Trails field) : field ≠ [] := by
  rintro rfl
  simp [Trails] at trails

/-- A field that does not end within quotes has no token only if it goes on behind its closing quote. -/
theorem ofField?_eq_none_iff (balanced : Balanced field) (some_byte : field ≠ []) :
    Token.ofField? field = none ↔ Trails field := by
  obtain ⟨b, bs, rfl⟩ := List.exists_cons_of_ne_nil some_byte
  rw [Token.ofField?_cons, Trails, List.head?_cons, Option.some_inj]
  by_cases quote : b = ascii '"'
  · have stays : ¬ Closes .outside (b :: bs) 0 := fun closes => absurd (closes_zero.mp closes).2 (by decide)
    have opens : GoesOn .outside (b :: bs) ↔ GoesOn .inside bs := by
      rw [goesOn_cons stays, Quoting.step, if_pos quote]
    obtain ⟨j, first⟩ := exists_firstCloses (exists_closes_of_head balanced (congrArg some quote))
    rw [if_pos quote, Option.map_eq_none_iff, unquote_eq_none_iff (q := .inside) (by decide), ← opens]
    constructor
    · exact fun goes => ⟨quote, j, first, goes j first⟩
    · rintro ⟨-, k, first, further⟩ j first'
      rwa [first'.unique first]
  · rw [if_neg quote]
    exact iff_of_false (Option.some_ne_none _) fun trails => quote trails.1

end

/-! ### Lines -/

section
variable {line : Bytes} {i : Nat}

theorem mapM_eq_none_iff {α β : Type} (read : α → Option β) (xs : List α) :
    xs.mapM read = none ↔ ∃ x ∈ xs, read x = none := by
  induction xs with
  | nil => simp
  | cons x xs ih =>
    rw [List.mapM_cons, List.exists_mem_cons_iff, ← ih]
    cases read x <;> cases xs.mapM read <;> simp

theorem ofBytes_unbalanced (broken : ¬ Balanced line) : LineReading.ofBytes line = .malformed := by
  have solid : trim line ≠ [] := by
    intro blank
    obtain ⟨left, right, whole, before, behind⟩ := exists_trim line
    rw [blank, List.nil_append] at whole
    rw [whole, balanced_append ((scan_blanks before).mpr rfl)] at broken
    exact broken ((scan_blanks behind).mpr rfl)
  rw [LineReading.ofBytes, if_neg (by simpa using solid), if_pos broken]

theorem ofBytes_hides (balanced : Balanced line) (hidden : Hides (ascii ':') .outside line) :
    LineReading.ofBytes line = .noise := by
  rw [LineReading.ofBytes, splitUnquoted_of_hides hidden, if_neg (not_not.mpr balanced)]
  exact ite_self _

/-- A line with a colon is malformed only if a field behind the last colon has no token. -/
theorem ofBytes_lastAt (balanced : Balanced line) (last : LastAt (ascii ':') line i) :
    LineReading.ofBytes line = .malformed ↔ ∃ field ∈ fields (line.drop (i + 1)), Token.ofField? field = none := by
  have solid : trim line ≠ [] := trim_ne_nil (List.mem_of_getElem? last.1.1) (by decide)
  obtain ⟨before, preamble, front⟩ := List.eq_nil_or_concat' (splitUnquoted (ascii ':') .outside (line.take i))
    |>.resolve_left (intercalate_splitUnquoted _ _).1
  rw [LineReading.ofBytes, if_neg (by simpa using solid), if_neg (not_not.mpr balanced), last.split (by decide), front,
    ← mapM_eq_none_iff]
  simp only [List.reverse_append, List.reverse_singleton, List.singleton_append]
  generalize (fields (line.drop (i + 1))).mapM Token.ofField? = tokens
  cases tokens with
  | none => simp
  | some tokens => cases tokens <;> simp

/-- Every part behind the last colon closes its quotes, as it stands and without its blanks. -/
theorem balanced_of_mem_partsFrom (balanced : Balanced line) (separates : SeparatesAt (ascii ':') line i) {part : Bytes}
    (member : part ∈ partsFrom (ascii ',') line (i + 1)) : Balanced part := by
  rw [← separates.parts (by decide) (by decide)] at member
  exact balanced_of_mem_split (by decide) (separates.balanced_drop (by decide) balanced) member

theorem exists_field_iff (balanced : Balanced line) (separates : SeparatesAt (ascii ':') line i) :
    (∃ field ∈ fields (line.drop (i + 1)), Token.ofField? field = none) ↔
      ∃ part ∈ partsFrom (ascii ',') line (i + 1), Trails (trim part) := by
  rw [fields, separates.parts (by decide) (by decide)]
  constructor
  · rintro ⟨field, member, nothing⟩
    obtain ⟨among, some_byte⟩ := List.mem_filter.mp member
    obtain ⟨part, within, rfl⟩ := List.mem_map.mp among
    have closed := balanced_trim (balanced_of_mem_partsFrom balanced separates within)
    exact ⟨part, within, (ofField?_eq_none_iff closed (by simpa using some_byte)).mp nothing⟩
  · rintro ⟨part, within, trails⟩
    have closed := balanced_trim (balanced_of_mem_partsFrom balanced separates within)
    refine ⟨trim part, ?_, (ofField?_eq_none_iff closed trails.ne_nil).mpr trails⟩
    exact List.mem_filter.mpr ⟨List.mem_map_of_mem within, by simpa using trails.ne_nil⟩

/-- The splits for colons and commas and the reading of a quoted field agree with one scan of
    the whole line. If that ends outside quotes and passes a colon there, the fields stand
    behind the last such colon between the commas that it passes outside quotes, each of them
    closes its quotes, and a field has no token only if it goes on behind its closing quote.
    So a line is malformed if its scan ends within quotes or a field goes on like this, and
    for no other reason. -/
theorem scans_agree (line : Bytes) :
    (Balanced line → (∃ k, SeparatesAt (ascii ':') line k) →
      ∃ i, LastAt (ascii ':') line i ∧
        (splitUnquoted (ascii ':') .outside line).getLast? = some (line.drop (i + 1)) ∧
        splitUnquoted (ascii ',') .outside (line.drop (i + 1)) = partsFrom (ascii ',') line (i + 1) ∧
        ∀ part ∈ partsFrom (ascii ',') line (i + 1), Balanced part ∧ Balanced (trim part) ∧
          ((trim part).head? = some (ascii '"') → ∃ j, FirstCloses .outside (trim part) j) ∧
          (trim part ≠ [] → (Token.ofField? (trim part) = none ↔ Trails (trim part)))) ∧
    (LineReading.ofBytes line = .malformed ↔
      ¬ Balanced line ∨
        ∃ i, LastAt (ascii ':') line i ∧ ∃ part ∈ partsFrom (ascii ',') line (i + 1), Trails (trim part)) := by
  constructor
  · intro balanced colon
    obtain ⟨i, last⟩ := exists_lastAt colon
    refine ⟨i, last, ?_, last.1.parts (by decide) (by decide), fun part member => ?_⟩
    · rw [last.split (by decide), List.getLast?_concat]
    · have closed := balanced_of_mem_partsFrom balanced last.1 member
      refine ⟨closed, balanced_trim closed, fun opens => ?_, ofField?_eq_none_iff (balanced_trim closed)⟩
      exact exists_firstCloses (exists_closes_of_head (balanced_trim closed) opens)
  · by_cases balanced : Balanced line
    · by_cases colon : ∃ k, SeparatesAt (ascii ':') line k
      · obtain ⟨i, last⟩ := exists_lastAt colon
        rw [ofBytes_lastAt balanced last, exists_field_iff balanced last.1]
        constructor
        · exact fun found => .inr ⟨i, last, found⟩
        · rintro (broken | ⟨k, last', found⟩)
          · exact absurd balanced broken
          · rwa [last.unique last']
      · rw [ofBytes_hides balanced (hides_iff_separatesAt.mpr (not_exists.mp colon))]
        constructor
        · exact nofun
        · rintro (broken | ⟨k, last, -⟩)
          · exact absurd balanced broken
          · exact absurd ⟨k, last.1⟩ colon
    · exact iff_of_true (ofBytes_unbalanced balanced) (.inl balanced)

/-- A line with a colon, commas and a backslash within quotes, whose last field goes on behind its closing quote. -/
def mixed : Bytes := Utf8.encode "+X:\"a:b\",1:\"c\\\",d\", \"e\" f"

theorem scans_agree_mixed :
    partsFrom (ascii ',') mixed 11 = [Utf8.encode "\"c\\\",d\"", Utf8.encode " \"e\" f"] ∧
      (∃ j, FirstCloses .outside (trim (Utf8.encode "\"c\\\",d\"")) j) ∧ LineReading.ofBytes mixed = .malformed := by
  have parts : partsFrom (ascii ',') mixed 11 = [Utf8.encode "\"c\\\",d\"", Utf8.encode " \"e\" f"] := by decide +kernel
  obtain ⟨agree, malformed⟩ := scans_agree mixed
  obtain ⟨i, last, -, -, each⟩ := agree (by decide +kernel) ⟨10, by decide +kernel⟩
  obtain rfl : i = 10 := by
    have inside : i < mixed.length := (List.getElem?_eq_some_iff.mp last.1.1).1
    have bounded : ∀ k < mixed.length, SeparatesAt (ascii ':') mixed k → k ≤ 10 := by decide +kernel
    exact le_antisymm (bounded i inside last.1) (last.2 10 (by decide +kernel))
  have closing : FirstCloses .outside (trim (Utf8.encode " \"e\" f")) 2 := by decide +kernel
  refine ⟨parts, ?_, malformed.mpr (.inr ⟨10, last, Utf8.encode " \"e\" f", by simp [parts], ?_⟩)⟩
  · exact (each _ (by simp [parts])).2.2.1 (by decide +kernel)
  · exact ⟨by decide +kernel, 2, closing, by decide +kernel⟩

end

end AirMonitor.At
