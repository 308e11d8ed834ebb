import AirMonitor.Proofs.At.RoundTrip
import AirMonitor.Proofs.Text.Numerals
import Mathlib.Data.Nat.Digits.Defs

/-!
Numbers in a response. What a number is written as is told on bytes and without a reader
(`Digits`, `Writes`). A bare token is a number just if the part of its field that is kept
writes it (`int?_eq_some_iff`). So the number is that of the whole field where nothing was
cut, and that of a front part of the field where something was (`NumberAt`).
-/
namespace AirMonitor.At

/-! ### Writing numbers -/

/-- A decimal digit. -/
def Digit (b : UInt8) : Prop := ascii '0' ≤ b ∧ b ≤ ascii '9'

instance (b : UInt8) : Decidable (Digit b) := inferInstanceAs (Decidable (_ ∧ _))

/-- One or more digits and the number that they stand for in base ten. -/
def Digits (bytes : Bytes) (n : Nat) : Prop :=
  bytes ≠ [] ∧ (∀ b ∈ bytes, Digit b) ∧ n = Nat.ofDigits 10 (bytes.reverse.map fun b => b.toNat - (ascii '0').toNat)

/-- Digits behind at most one sign, and their number. -/
inductive Writes : Bytes → Int → Prop
  | plain {bytes : Bytes} {n : Nat} (digits : Digits bytes n) : Writes bytes n
  | plus {bytes : Bytes} {n : Nat} (digits : Digits bytes n) : Writes (ascii '+' :: bytes) n
  | minus {bytes : Bytes} {n : Nat} (digits : Digits bytes n) : Writes (ascii '-' :: bytes) (-n)

theorem Writes.bytes {bytes : Bytes} {x : Int} (writes : Writes bytes x) :
    ∀ b ∈ bytes, Digit b ∨ b = ascii '+' ∨ b = ascii '-' := by
  intro b member
  cases writes with
  | plain digits => exact .inl (digits.2.1 b member)
  | plus digits =>
    rcases List.mem_cons.mp member with sign | later
    · exact .inr (.inl sign)
    · exact .inl (digits.2.1 b later)
  | minus digits =>
    rcases List.mem_cons.mp member with sign | later
    · exact .inr (.inr sign)
    · exact .inl (digits.2.1 b later)

/-- The characters of a text of one byte each. -/
def charsOf (bytes : Bytes) : List Char := bytes.map fun b => Char.ofNat b.toNat

theorem char_of_digit {b : UInt8} (digit : Digit b) :
    (Char.ofNat b.toNat).isDigit = true ∧ (Char.ofNat b.toNat).toNat = b.toNat := by
  have every : ∀ x : Fin 256, Digit (UInt8.ofNat x) →
      (Char.ofNat (UInt8.ofNat x).toNat).isDigit = true ∧
        (Char.ofNat (UInt8.ofNat x).toNat).toNat = (UInt8.ofNat x).toNat := by decide +kernel
  simpa using every ⟨b.toNat, b.toNat_lt⟩ (by simpa using digit)

theorem digit_of_char {c : Char} (digit : c.isDigit = true) :
    Digit (UInt8.ofNat c.toNat) ∧ Char.ofNat (UInt8.ofNat c.toNat).toNat = c := by
  have range : 48 ≤ c.toNat ∧ c.toNat ≤ 57 := Char.isDigit_iff_toNat.mp digit
  have same : (UInt8.ofNat c.toNat).toNat = c.toNat := UInt8.toNat_ofNat_of_lt' (Nat.lt_of_le_of_lt range.2 (by decide))
  refine ⟨⟨?_, ?_⟩, ?_⟩
  · rw [UInt8.le_iff_toNat_le, same]
    exact range.1
  · rw [UInt8.le_iff_toNat_le, same]
    exact range.2
  · rw [same, Char.ofNat_toNat]

theorem encode_charsOf {bytes : Bytes} (digits : ∀ b ∈ bytes, Digit b) :
    (charsOf bytes).flatMap String.utf8EncodeChar = bytes := by
  refine Utf8.flatMap_plain fun b member => ?_
  exact Nat.lt_of_le_of_lt (UInt8.le_iff_toNat_le.mp (digits b member).2) (by decide)

theorem value_charsOf {bytes : Bytes} (digits : ∀ b ∈ bytes, Digit b) :
    Numeral.value (charsOf bytes) = Nat.ofDigits 10 (bytes.reverse.map fun b => b.toNat - (ascii '0').toNat) := by
  have same : ∀ b ∈ bytes, ∀ n : Nat, 10 * n + ((Char.ofNat b.toNat).toNat - '0'.toNat) =
      (b.toNat - (ascii '0').toNat) + 10 * n := by
    intro b member n
    rw [(char_of_digit (digits b member)).2, Nat.add_comm]
    rfl
  rw [Nat.ofDigits_eq_foldr, List.foldr_map, List.foldr_reverse, Numeral.value, charsOf, List.foldl_map]
  exact List.foldl_ext _ _ _ fun n b member => same b member n

theorem digits?_eq_some_iff {cs : List Char} {n : Nat} :
    Numeral.digits? cs = some n ↔ ∃ bytes, cs = charsOf bytes ∧ Digits bytes n := by
  unfold Numeral.digits?
  constructor
  · intro reads
    by_cases digits : cs ≠ [] ∧ cs.all Char.isDigit = true
    · rw [if_pos digits] at reads
      obtain ⟨nonempty, all⟩ := digits
      rw [List.all_eq_true] at all
      have chars : cs = charsOf (cs.map fun c => UInt8.ofNat c.toNat) := by
        rw [charsOf, List.map_map]
        exact (List.map_id'' (fun c => rfl) cs).symm.trans
          (List.map_congr_left fun c member => (digit_of_char (all c member)).2.symm)
      have bytes : ∀ b ∈ cs.map fun c => UInt8.ofNat c.toNat, Digit b := by
        simp only [List.mem_map]
        rintro b ⟨c, member, rfl⟩
        exact (digit_of_char (all c member)).1
      refine ⟨_, chars, by simpa using nonempty, bytes, ?_⟩
      rw [← value_charsOf bytes, ← chars]
      exact (Option.some.inj reads).symm
    · rw [if_neg digits] at reads
      cases reads
  · rintro ⟨bytes, rfl, nonempty, digits, rfl⟩
    have all : (charsOf bytes).all Char.isDigit = true := by
      simp only [charsOf, List.all_map, List.all_eq_true, Function.comp_apply]
      exact fun b member => (char_of_digit (digits b member)).1
    rw [if_pos ⟨by simpa [charsOf] using nonempty, all⟩, value_charsOf digits]

theorem eq_of_encode {text : String} {cs : List Char} (same : Utf8.encode text = cs.flatMap String.utf8EncodeChar) :
    text.toList = cs := by
  rw [← Utf8.longest_encode text, same, ← Utf8.encode_ofList, Utf8.longest_encode, String.toList_ofList]

/-- A number is read just where one is written. -/
theorem signed?_eq_some_iff {text : String} {x : Int} :
    Numeral.signed? text.toList = some x ↔ Writes (Utf8.encode text) x := by
  have signed (c : Char) (b : UInt8) (writes : String.utf8EncodeChar c = [b]) {bytes : Bytes}
      (digits : ∀ b ∈ bytes, Digit b) : (c :: charsOf bytes).flatMap String.utf8EncodeChar = b :: bytes := by
    rw [List.flatMap_cons, writes, encode_charsOf digits]
    rfl
  constructor
  · intro reads
    rw [Utf8.encode]
    unfold Numeral.signed? at reads
    split at reads
    · next cs same =>
      obtain ⟨y, lifted, rfl⟩ := Option.map_eq_some_iff.mp reads
      obtain ⟨n, number, ⟨⟩⟩ := Option.bind_eq_some_iff.mp lifted
      obtain ⟨bytes, chars, digits⟩ := digits?_eq_some_iff.mp number
      rw [same, chars, signed '-' (ascii '-') (by decide) digits.2.1]
      exact .minus digits
    · next cs same =>
      obtain ⟨n, number, rfl⟩ := Option.map_eq_some_iff.mp reads
      obtain ⟨bytes, chars, digits⟩ := digits?_eq_some_iff.mp number
      rw [same, chars, signed '+' (ascii '+') (by decide) digits.2.1]
      exact .plus digits
    · obtain ⟨n, number, rfl⟩ := Option.map_eq_some_iff.mp reads
      obtain ⟨bytes, chars, digits⟩ := digits?_eq_some_iff.mp number
      rw [chars, encode_charsOf digits.2.1]
      exact .plain digits
  · intro writes
    generalize whole : Utf8.encode text = bytes at writes
    cases writes with
    | plain digits =>
      rw [eq_of_encode (whole.trans (encode_charsOf digits.2.1).symm)]
      cases bytes with
      | nil => exact absurd rfl digits.1
      | cons b bytes =>
        have first := (char_of_digit (digits.2.1 b (by simp))).1
        have chars : charsOf (b :: bytes) = Char.ofNat b.toNat :: charsOf bytes := rfl
        rw [chars, Numeral.signed?_digit first, ← chars, digits?_eq_some_iff.mpr ⟨_, rfl, digits⟩]
        rfl
    | plus digits =>
      rw [eq_of_encode (whole.trans (signed '+' (ascii '+') (by decide) digits.2.1).symm), Numeral.signed?,
        digits?_eq_some_iff.mpr ⟨_, rfl, digits⟩]
      rfl
    | minus digits =>
      rw [eq_of_encode (whole.trans (signed '-' (ascii '-') (by decide) digits.2.1).symm), Numeral.signed?,
        digits?_eq_some_iff.mpr ⟨_, rfl, digits⟩]
      rfl

/-! ### Numbers in tokens -/

/-- The front part of a field that is kept. -/
def kept (field : Bytes) : Bytes := Utf8.encode (keep field)

theorem kept_eq_iff {field : Bytes} : kept field = field ↔ isCut field = false := by
  rw [← Bool.not_eq_true, isCut_iff, not_not, kept]

/-- A token is a number just if it is bare and the text that is kept writes one of 32 bits. -/
theorem int?_eq_some_iff {t : Token} {x : Int} : t.int? = some x ↔
    t.kind = .bare ∧ Writes (Utf8.encode t.text) x ∧ -0x80000000 ≤ x ∧ x ≤ 0x7fffffff := by
  unfold Token.int?
  cases t.kind with
  | quoted => simp
  | bare => simp [Option.filter_eq_some_iff, signed?_eq_some_iff]

/-! ### Numbers in lines -/

/-- What stands in a line behind its last colon outside quotes. -/
def payload (line : Bytes) : Bytes := (splitUnquoted (ascii ':') .outside line).getLastD []

/-- The token at a place of a line that was read is that of the field at this place. -/
theorem field_of_token {line : Bytes} {l : ResponseLine} (reads : LineReading.ofBytes line = .line l) {place : Nat}
    {t : Token} (found : l.tokens[place]? = some t) :
    ∃ field, (fields (payload line))[place]? = some field ∧ Token.ofField? field = some t ∧
      (l.truncated = false → t.truncated = false) := by
  obtain ⟨-, before, preamble, behind, parts, tokens, -, read, rfl⟩ := LineReading.ofBytes_eq_line reads
  have last : payload line = behind := by simp [payload, parts]
  have found : tokens[place]? = some t := by
    obtain ⟨early, same⟩ := List.getElem?_eq_some_iff.mp found
    simp only [ResponseLine.ofParts, List.length_take] at early
    simp only [ResponseLine.ofParts, List.getElem_take] at same
    rw [← same, List.getElem?_eq_getElem]
  obtain ⟨field, at_place, one⟩ := getElem?_of_mapM read found
  refine ⟨field, by rw [last, at_place], one, ?_⟩
  intro whole
  simp only [ResponseLine.ofParts, Bool.or_eq_false_iff, List.any_eq_false, Bool.not_eq_true] at whole
  exact whole.1.2 t (List.mem_of_getElem? found)

/-- At a place of a line that was read as `l` the kept part of a field writes a number. It is the
    whole field unless the line tells that something was cut. -/
def NumberAt (line : Bytes) (l : ResponseLine) (place : Nat) (x : Int) : Prop :=
  ∃ field, (fields (payload line))[place]? = some field ∧ kept field <+: field ∧ Writes (kept field) x ∧
    (l.truncated = false → kept field = field)

theorem numberAt_of_int? {line : Bytes} {l : ResponseLine} (reads : LineReading.ofBytes line = .line l) {place : Nat}
    {x : Int} (number : l.int? place = some x) : NumberAt line l place x := by
  obtain ⟨t, found, number⟩ := Option.bind_eq_some_iff.mp number
  obtain ⟨bare, writes, -⟩ := int?_eq_some_iff.mp number
  obtain ⟨field, at_place, one, whole⟩ := field_of_token reads found
  rcases Token.ofField?_eq_some one with ⟨value, -, rfl⟩ | ⟨-, -, rfl⟩
  · cases bare
  · exact ⟨field, at_place, encode_keep_front field, writes, fun uncut => kept_eq_iff.mpr (whole uncut)⟩

end AirMonitor.At
