import AirMonitor.Proofs.At.RoundTrip
import AirMonitor.Proofs.Text.Fronts

/-!
What is kept of a line, and what is told of the rest. A line says a preamble and values
(`LineTells`), however long they are. Of each as much is kept as its first 24 bytes have in
whole characters (`Keeps`), the first fifteen values become tokens, and a flag stands
wherever something is missing and nowhere else (`ResponseLine.Gives`). A line that was
read gives what it says in just that way (`line_gives`).
-/
namespace AirMonitor

namespace At

/-! ### What is kept of a value -/

/-- The text is the longest that the first 24 bytes of a value begin with, and it does not
    end within a character of the value. -/
structure Keeps (value : Bytes) (text : String) : Prop where
  front : Utf8.encode text <+: value.take valueRoom
  longest : ∀ other, Utf8.encode other <+: value.take valueRoom → (Utf8.encode other).length ≤ (Utf8.encode text).length
  between : ∀ before c, Utf8.encode before ++ String.utf8EncodeChar c <+: value →
    (Utf8.encode text).length ≤ (Utf8.encode before).length ∨
      (Utf8.encode before).length + c.utf8Size ≤ (Utf8.encode text).length

/-- Not all of the value is kept. -/
def Cut (value : Bytes) : Prop := ∃ text, Keeps value text ∧ Utf8.encode text ≠ value

section
variable {value : Bytes} {text : String}

theorem keeps_keep (value : Bytes) : Keeps value (keep value) where
  front := Utf8.encode_longest_front _
  longest _ begins := (Utf8.encode_longest_of_front begins).length_le
  between _ _ begins := Utf8.encode_between (encode_keep_front value) begins

theorem Keeps.eq_keep (keeps : Keeps value text) : text = keep value := by
  have kept := keeps_keep value
  have same_length : (Utf8.encode text).length = (Utf8.encode (keep value)).length :=
    Nat.le_antisymm (kept.longest text keeps.front) (keeps.longest (keep value) kept.front)
  have same : Utf8.encode text = Utf8.encode (keep value) :=
    (List.prefix_of_prefix_length_le keeps.front kept.front same_length.le).eq_of_length same_length
  rw [← Utf8.longest_encode text, same, Utf8.longest_encode]

theorem isCut_iff_cut (value : Bytes) : isCut value = true ↔ Cut value := by
  rw [isCut_iff]
  constructor
  · exact fun differ => ⟨keep value, keeps_keep value, differ⟩
  · rintro ⟨text, keeps, differ⟩
    rwa [← keeps.eq_keep]

end

/-! ### What a field says -/

/-- The bytes between two quotes and the value that they stand for: a backslash is left out,
    and the byte behind it stands for itself, as every byte does that is no quote. -/
inductive Unescapes : Bytes → Bytes → Prop
  | nil : Unescapes [] []
  | plain {b : UInt8} {body value : Bytes} :
      b ≠ ascii '\\' → b ≠ ascii '"' → Unescapes body value → Unescapes (b :: body) (b :: value)
  | escaped {b : UInt8} {body value : Bytes} : Unescapes body value → Unescapes (ascii '\\' :: b :: body) (b :: value)

/-- A value in full, and how it is written. -/
structure Value where
  kind : TokenKind
  bytes : Bytes
deriving DecidableEq, Repr

/-- A field without blanks at its ends and the value that it says. -/
inductive Tells : Bytes → Value → Prop
  | bare {field : Bytes} : field ≠ [] → field.head? ≠ some (ascii '"') → Tells field ⟨.bare, field⟩
  | quoted {body value : Bytes} : Unescapes body value → Tells (ascii '"' :: (body ++ [ascii '"'])) ⟨.quoted, value⟩

section
variable {field body bs value : Bytes} {v : Value}

theorem unquote_of_unescapes (unescapes : Unescapes body value) :
    unquote .inside (body ++ [ascii '"']) = some value := by
  induction unescapes with
  | nil => rfl
  | plain no_slash no_quote _ ih => rw [List.cons_append, unquote_inside, if_neg no_slash, if_neg no_quote, ih, Option.map_some]
  | escaped _ ih => rw [List.cons_append, unquote_inside, if_pos rfl, List.cons_append, unquote_escaped, ih, Option.map_some]

/-- A backslash that was read waits for its byte, so reading goes on in one of two places. -/
theorem unescapes_of_unquote (bs : Bytes) :
    (∀ value, unquote .inside bs = some value → ∃ body, bs = body ++ [ascii '"'] ∧ Unescapes body value) ∧
      ∀ value, unquote .escaped bs = some value → ∃ body, bs = body ++ [ascii '"'] ∧ Unescapes (ascii '\\' :: body) value := by
  induction bs with
  | nil => exact ⟨nofun, nofun⟩
  | cons b bs ih =>
    obtain ⟨inside, escaped⟩ := ih
    constructor
    · intro value closes
      rw [unquote_inside] at closes
      by_cases slash : b = ascii '\\'
      · rw [if_pos slash] at closes
        obtain ⟨body, rfl, unescapes⟩ := escaped value closes
        exact ⟨ascii '\\' :: body, by rw [slash, List.cons_append], unescapes⟩
      · rw [if_neg slash] at closes
        by_cases quote : b = ascii '"'
        · rw [if_pos quote, Option.ite_none_right_eq_some] at closes
          obtain ⟨final, same⟩ := closes
          obtain rfl := Option.some.inj same
          exact ⟨[], by rw [quote, List.isEmpty_iff.mp final, List.nil_append], .nil⟩
        · rw [if_neg quote] at closes
          obtain ⟨tail, more, rfl⟩ := Option.map_eq_some_iff.mp closes
          obtain ⟨body, rfl, unescapes⟩ := inside tail more
          exact ⟨b :: body, rfl, .plain slash quote unescapes⟩
    · intro value closes
      rw [unquote_escaped] at closes
      obtain ⟨tail, more, rfl⟩ := Option.map_eq_some_iff.mp closes
      obtain ⟨body, rfl, unescapes⟩ := inside tail more
      exact ⟨b :: body, rfl, .escaped unescapes⟩

theorem Tells.unique {other : Value} (tells : Tells field v) (tells' : Tells field other) : v = other := by
  cases tells with
  | bare _ unquoted =>
    cases tells' with
    | bare => rfl
    | quoted => exact absurd rfl unquoted
  | quoted unescapes =>
    generalize written : ascii '"' :: (_ ++ [ascii '"']) = field at tells'
    cases tells' with
    | bare _ unquoted =>
      rw [← written] at unquoted
      exact absurd rfl unquoted
    | quoted unescapes' =>
      have same := unquote_of_unescapes unescapes
      rw [(List.cons.inj written).2, unquote_of_unescapes unescapes'] at same
      rw [Option.some.inj same]

/-- The token that gives a value. -/
def Value.token (v : Value) : Token := .ofValue v.kind v.bytes

theorem tells_of_ofField? {t : Token} (reads : Token.ofField? field = some t) : ∃ v, Tells field v ∧ t = v.token := by
  cases field with
  | nil => cases reads
  | cons b bs =>
    rw [Token.ofField?_cons] at reads
    by_cases quote : b = ascii '"'
    · rw [if_pos quote] at reads
      obtain ⟨value, closes, rfl⟩ := Option.map_eq_some_iff.mp reads
      obtain ⟨body, rfl, unescapes⟩ := (unescapes_of_unquote bs).1 value closes
      rw [quote]
      exact ⟨⟨.quoted, value⟩, .quoted unescapes, rfl⟩
    · rw [if_neg quote] at reads
      exact ⟨⟨.bare, b :: bs⟩, .bare (List.cons_ne_nil b bs) (by simpa using quote), (Option.some.inj reads).symm⟩

theorem tells_of_tokens {fields : List Bytes} {tokens : List Token}
    (read : List.Forall₂ (fun field t => Token.ofField? field = some t) fields tokens) :
    ∃ values, List.Forall₂ Tells fields values ∧ tokens = values.map Value.token := by
  induction read with
  | nil => exact ⟨[], .nil, rfl⟩
  | cons one _ ih =>
    obtain ⟨v, tells, rfl⟩ := tells_of_ofField? one
    obtain ⟨values, each, rfl⟩ := ih
    exact ⟨v :: values, .cons tells each, rfl⟩

end

/-! ### What a line says -/

/-- The bytes are these parts with a separator between each two of them, and no other separator stands outside quotes. -/
structure Parts (separator : UInt8) (bs : Bytes) (parts : List Bytes) : Prop where
  some_part : parts ≠ []
  joined : [separator].intercalate parts = bs
  each : ∀ part ∈ parts, Hides separator .outside part ∧ Balanced part

/-- A line says what stands between its last two colons, or ahead of its only one, and the values
    of the fields behind the last that are not blank. -/
def LineTells (line preamble : Bytes) (values : List Value) : Prop :=
  ∃ before payload parts,
    Parts (ascii ':') line (before ++ [preamble, payload]) ∧ Parts (ascii ',') payload parts ∧
      List.Forall₂ Tells ((parts.map trim).filter (!·.isEmpty)) values

section
variable {separator : UInt8} {bs : Bytes} {parts : List Bytes}

theorem Parts.split (whole : Parts separator bs parts) : splitUnquoted separator .outside bs = parts := by
  rw [← whole.joined]
  exact splitUnquoted_intercalate whole.some_part whole.each

theorem intercalate_splitUnquoted (separator : UInt8) (bs : Bytes) :
    splitUnquoted separator .outside bs ≠ [] ∧ [separator].intercalate (splitUnquoted separator .outside bs) = bs := by
  refine splitUnquoted_induction (motive := fun bs parts => parts ≠ [] ∧ [separator].intercalate parts = bs) ?_ ?_ bs
  · exact fun bs _ => ⟨List.cons_ne_nil bs [], List.intercalate_singleton⟩
  · rintro part rest - - ⟨some_part, joined⟩
    refine ⟨List.cons_ne_nil _ _, ?_⟩
    obtain ⟨next, others, split⟩ := List.exists_cons_of_ne_nil some_part
    rw [split] at joined ⊢
    rw [intercalate_cons_cons, joined]

theorem parts_splitUnquoted (unlike : separator ≠ ascii '"') (balanced : Balanced bs) :
    Parts separator bs (splitUnquoted separator .outside bs) where
  some_part := (intercalate_splitUnquoted separator bs).1
  joined := (intercalate_splitUnquoted separator bs).2
  each _ member := ⟨hides_of_mem_split member, balanced_of_mem_split unlike balanced member⟩

end

/-- A line says one thing. -/
theorem LineTells.unique {line preamble preamble' : Bytes} {values values' : List Value}
    (tells : LineTells line preamble values) (tells' : LineTells line preamble' values') :
    preamble = preamble' ∧ values = values' := by
  obtain ⟨before, payload, parts, colons, commas, each⟩ := tells
  obtain ⟨before', payload', parts', colons', commas', each'⟩ := tells'
  have same : before ++ [preamble, payload] = before' ++ [preamble', payload'] := by rw [← colons.split, colons'.split]
  obtain ⟨rfl, rfl⟩ : preamble = preamble' ∧ payload = payload' := by
    simpa using (List.append_inj' same rfl).2
  obtain rfl : parts = parts' := by rw [← commas.split, commas'.split]
  have functional : Relator.RightUnique Tells := fun _ _ _ first second => first.unique second
  exact ⟨rfl, List.right_unique_forall₂' functional each each'⟩

/-! ### What a line gives -/

/-- The token gives what is kept of a value, and tells just if that is not all. -/
structure Token.Gives (t : Token) (v : Value) : Prop where
  kind : t.kind = v.kind
  text : Keeps v.bytes t.text
  flagged : t.truncated = true ↔ Utf8.encode t.text ≠ v.bytes

/-- The line gives what is kept of a preamble and the first fifteen values, and tells just if
    that is not all. -/
structure ResponseLine.Gives (l : ResponseLine) (preamble : Bytes) (values : List Value) : Prop where
  head : Keeps preamble l.preamble
  tokens : List.Forall₂ Token.Gives l.tokens (values.take tokenRoom)
  flagged : l.truncated = true ↔
    Utf8.encode l.preamble ≠ preamble ∨ (∃ v ∈ values, Cut v.bytes) ∨ tokenRoom < values.length

theorem Value.gives_token (v : Value) : v.token.Gives v where
  kind := rfl
  text := keeps_keep v.bytes
  flagged := isCut_iff v.bytes

theorem ResponseLine.gives_ofParts (preamble : Bytes) (values : List Value) :
    (ofParts preamble (values.map Value.token)).Gives preamble values where
  head := keeps_keep preamble
  tokens := by
    rw [ofParts, ← List.map_take, List.forall₂_map_left_iff]
    exact List.forall₂_same.mpr fun v _ => v.gives_token
  flagged := by
    have some_cut : (values.map Value.token).any Token.truncated = true ↔ ∃ v ∈ values, Cut v.bytes := by
      rw [List.any_map, List.any_eq_true]
      exact exists_congr fun v => and_congr_right fun _ => isCut_iff_cut v.bytes
    rw [ofParts, Bool.or_eq_true, Bool.or_eq_true, or_assoc, isCut_iff, some_cut, decide_eq_true_eq, List.length_map]

/-- A line that is read says one preamble and one list of values, it gives what is kept of
    them, and it is flagged just if some of it was cut or some value was left out. So does
    every line of a response. -/
theorem line_gives :
    (∀ line l, LineReading.ofBytes line = .line l →
      (∃ preamble values, LineTells line preamble values) ∧
        ∀ preamble values, LineTells line preamble values → l.Gives preamble values) ∧
    ∀ raw, ∀ l ∈ (tokenize raw).lines, ∃ line ∈ splitLines raw, ∃ preamble values,
      LineTells line preamble values ∧ l.Gives preamble values := by
  have read : ∀ line l, LineReading.ofBytes line = .line l →
      ∃ preamble values, LineTells line preamble values ∧ l.Gives preamble values := by
    intro line l reads
    obtain ⟨balanced, before, preamble, payload, colons, tokens, -, all, rfl⟩ := LineReading.ofBytes_eq_line reads
    obtain ⟨values, tells, rfl⟩ := tells_of_tokens (forall₂_of_mapM all)
    have whole : Parts (ascii ':') line (before ++ [preamble, payload]) := by
      rw [← colons]
      exact parts_splitUnquoted (by decide) balanced
    have balanced_payload : Balanced payload := (whole.each payload (by simp)).2
    exact ⟨preamble, values, ⟨before, payload, _, whole, parts_splitUnquoted (by decide) balanced_payload, tells⟩,
      ResponseLine.gives_ofParts preamble values⟩
  constructor
  · intro line l reads
    obtain ⟨preamble, values, tells, gives⟩ := read line l reads
    refine ⟨⟨preamble, values, tells⟩, fun preamble' values' tells' => ?_⟩
    obtain ⟨rfl, rfl⟩ := tells.unique tells'
    exact gives
  · intro raw l member
    obtain ⟨line, within, reads⟩ := line_of_mem_tokenize member
    obtain ⟨preamble, values, tells, gives⟩ := read line l reads
    exact ⟨line, within, preamble, values, tells, gives⟩

/-- A quoted value of 25 bytes whose last character begins at the 24th, and a bare one that ends with no character. -/
def straddling : Bytes := Utf8.encode "a:+V:\"\\\"abcdefghijklmnopqrstuvé\", 1" ++ [0xff]

theorem line_gives_straddling :
    LineReading.ofBytes straddling =
        .line ⟨"+V", [⟨"\"abcdefghijklmnopqrstuv", .quoted, true⟩, ⟨"1", .bare, true⟩], true⟩ ∧
      ∃ preamble values, LineTells straddling preamble values ∧
        ResponseLine.Gives ⟨"+V", [⟨"\"abcdefghijklmnopqrstuv", .quoted, true⟩, ⟨"1", .bare, true⟩], true⟩ preamble values := by
  have reads : LineReading.ofBytes straddling =
      .line ⟨"+V", [⟨"\"abcdefghijklmnopqrstuv", .quoted, true⟩, ⟨"1", .bare, true⟩], true⟩ := by decide +kernel
  obtain ⟨⟨preamble, values, tells⟩, gives⟩ := line_gives.1 straddling _ reads
  exact ⟨reads, preamble, values, tells, gives preamble values tells⟩

end At
end AirMonitor
