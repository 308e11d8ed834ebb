import AirMonitor.Text.Fixed
import AirMonitor.Text.Numeral
import AirMonitor.Text.Utf8
import AirMonitor.Time

/-!
How many bytes a number takes, and how it is read back. Every character of a number takes one
byte, so a number that is moved to the right takes as many bytes as it has characters, or as the
space is wide. What is written is a number of its own (`signed?_signed`, `hexValue_hex`), and no
character of it separates fields or ends them (`isBare`).
-/
namespace AirMonitor

theorem Utf8.length_encode {s : String} (single : ∀ c ∈ s.toList, c.utf8Size = 1) : (encode s).length = s.length := by
  have one : ∀ c ∈ s.toList, (String.utf8EncodeChar c).length = 1 := by
    intro c member
    rw [String.length_utf8EncodeChar, single c member]
  rw [encode, List.length_flatMap, List.map_congr_left one, List.map_const', List.sum_replicate_nat, Nat.mul_one,
    String.length_toList]

namespace Numeral

/-! ### The characters of numbers -/

/-- A letter, a digit, a minus sign or a point. -/
def isBare (c : Char) : Bool := c.isAlphanum || c = '-' || c = '.'

theorem isBare_of_isDigit {c : Char} (digit : c.isDigit = true) : isBare c = true := by
  simp [isBare, Char.isAlphanum, digit]

theorem utf8Size_of_isDigit {c : Char} (digit : c.isDigit = true) : c.utf8Size = 1 := by
  rw [Char.utf8Size_eq_one_iff]
  simp only [Char.isDigit, Bool.and_eq_true, decide_eq_true_eq] at digit
  exact Nat.le_trans digit.2 (by decide)

theorem isDigit_decimal (n : Nat) : ∀ c ∈ (decimal n).toList, c.isDigit = true := by
  intro c member
  rw [decimal, String.toList_ofList] at member
  exact Nat.isDigit_of_mem_toDigits (by decide) (Nat.le_refl 10) member

theorem mem_signed {x : Int} {c : Char} (member : c ∈ (signed x).toList) : c = '-' ∨ c.isDigit = true := by
  unfold signed at member
  split at member
  · rw [String.toList_append, List.mem_append] at member
    rcases member with sign | digit
    · exact .inl (by simpa using sign)
    · exact .inr (isDigit_decimal _ c digit)
  · exact .inr (isDigit_decimal _ c member)

theorem mem_toDigits {b n : Nat} {c : Char} (base : 1 < b) (member : c ∈ Nat.toDigits b n) :
    ∃ k < b, c = Nat.digitChar k := by
  induction n using Nat.strongRecOn with
  | ind n ih =>
    rw [Nat.toDigits_eq_if base] at member
    by_cases small : n < b
    · rw [if_pos small] at member
      exact ⟨n, small, List.mem_singleton.mp member⟩
    · rw [if_neg small] at member
      rcases List.mem_append.mp member with front | last
      · exact ih (n / b) (Nat.div_lt_self (by omega) base) front
      · exact ⟨n % b, Nat.mod_lt _ (by omega), List.mem_singleton.mp last⟩

theorem isBare_signed (x : Int) : ∀ c ∈ (signed x).toList, isBare c = true := by
  intro c member
  rcases mem_signed member with rfl | digit
  · decide
  · exact isBare_of_isDigit digit

theorem isBare_hex (n : Nat) : ∀ c ∈ (hex n).toList, isBare c = true := by
  intro c member
  rw [hex, String.toList_ofList] at member
  obtain ⟨k, small, rfl⟩ := mem_toDigits (by decide) member
  have all : ∀ k < 16, isBare (Nat.digitChar k) = true := by decide
  exact all k small

/-! ### Sizes -/

theorem utf8Size_decimal (n : Nat) : ∀ c ∈ (decimal n).toList, c.utf8Size = 1 :=
  fun c member => utf8Size_of_isDigit (isDigit_decimal n c member)

theorem utf8Size_signed (x : Int) : ∀ c ∈ (signed x).toList, c.utf8Size = 1 := by
  intro c member
  rcases mem_signed member with rfl | digit
  · decide
  · exact utf8Size_of_isDigit digit

/-- A number of at most `k` digits takes at most `k` bytes. -/
theorem length_decimal {n k : Nat} (positive : 0 < k) (small : n < Nat.pow 10 k) :
    (Utf8.encode (decimal n)).length ≤ k := by
  rw [Utf8.length_encode (utf8Size_decimal n), decimal, String.length_ofList]
  exact (Nat.length_toDigits_le_iff (by decide) positive).mpr small

/-- A number with its sign takes at most a byte more than its digits. -/
theorem length_signed {x : Int} {k : Nat} (positive : 0 < k) (small : x.natAbs < Nat.pow 10 k) :
    (Utf8.encode (signed x)).length ≤ k + 1 := by
  have digits := length_decimal positive small
  unfold signed
  split
  · have sign : (Utf8.encode "-").length = 1 := by decide
    rw [Utf8.encode_append, List.length_append]
    omega
  · omega

/-- What is moved to the right takes as many bytes as the space is wide, if it took no more. -/
theorem length_alignRight {width : Nat} {fill : Char} {s : String} (single : fill.utf8Size = 1)
    (plain : ∀ c ∈ s.toList, c.utf8Size = 1) :
    (Utf8.encode (alignRight width fill s)).length = max width (Utf8.encode s).length := by
  have blanks : ∀ c ∈ (String.ofList (List.replicate (width - s.length) fill)).toList, c.utf8Size = 1 := by
    intro c member
    rw [String.toList_ofList] at member
    rw [List.eq_of_mem_replicate member, single]
  rw [alignRight, Utf8.encode_append, List.length_append, Utf8.length_encode blanks, Utf8.length_encode plain,
    String.length_ofList, List.length_replicate]
  omega

/-- A moment in a column of ten characters takes at most twenty bytes. -/
theorem length_moment (t : Instant) : (Utf8.encode (alignRight 10 ' ' (signed t.toInt))).length ≤ 20 := by
  have lower := t.toInt_lower
  have upper := t.toInt_upper
  have small : t.toInt.natAbs < Nat.pow 10 19 := by
    have power : Nat.pow 10 19 = 10000000000000000000 := by decide
    omega
  have digits := length_signed (by decide) small
  rw [length_alignRight (by decide) (utf8Size_signed _)]
  omega

/-! ### Reading back -/

theorem digits?_decimal (n : Nat) : digits? (decimal n).toList = some n := by
  have all : (decimal n).toList.all Char.isDigit = true := List.all_eq_true.mpr (isDigit_decimal n)
  have nonempty : (decimal n).toList ≠ [] := by
    rw [decimal, String.toList_ofList]
    exact Nat.toDigits_ne_nil
  have number : value (decimal n).toList = n := by
    rw [decimal, String.toList_ofList]
    exact Nat.ofDigitChars_ten_toDigits
  rw [digits?, if_pos ⟨nonempty, all⟩, number]

theorem signed?_digit {c : Char} (digit : c.isDigit = true) (cs : List Char) :
    signed? (c :: cs) = (digits? (c :: cs)).map Int.ofNat := by
  unfold signed?
  split
  · next same =>
    obtain rfl := (List.cons.inj same).1
    exact absurd digit (by decide)
  · next same =>
    obtain rfl := (List.cons.inj same).1
    exact absurd digit (by decide)
  · rfl

theorem signed?_signed (x : Int) : signed? (signed x).toList = some x := by
  have read := digits?_decimal x.natAbs
  unfold signed
  by_cases negative : x < 0
  · have chars : ("-" ++ decimal x.natAbs).toList = '-' :: (decimal x.natAbs).toList := by simp
    rw [if_pos negative, chars, signed?, read]
    have back : -(x.natAbs : Int) = x := by omega
    exact congrArg some back
  · rw [if_neg negative]
    cases digits : (decimal x.natAbs).toList with
    | nil =>
      rw [digits] at read
      cases read
    | cons c cs =>
      have digit := isDigit_decimal x.natAbs c (by rw [digits]; exact List.mem_cons_self)
      rw [signed?_digit digit, ← digits, read]
      exact congrArg some (Int.natAbs_of_nonneg (Int.not_lt.mp negative))

/-- What one digit of base sixteen stands for. -/
def nibble (c : Char) : Nat := if c.isDigit then c.toNat - '0'.toNat else c.toNat - 'a'.toNat + 10

/-- The number that digits of base sixteen write, first digit first. -/
def hexValue (digits : List Char) : Nat := digits.foldl (fun n c => 16 * n + nibble c) 0

theorem nibble_digitChar : ∀ k < 16, nibble (Nat.digitChar k) = k := by decide

theorem hexValue_hex (n : Nat) : hexValue (hex n).toList = n := by
  rw [hex, String.toList_ofList]
  induction n using Nat.strongRecOn with
  | ind n ih =>
    by_cases small : n < 16
    · rw [Nat.toDigits_of_lt_base small]
      exact (Nat.zero_add _).trans (nibble_digitChar n small)
    · have front : hexValue (Nat.toDigits 16 (n / 16)) = n / 16 := ih (n / 16) (by omega)
      rw [Nat.toDigits_of_base_le (by decide) (Nat.le_of_not_lt small), hexValue, List.foldl_append, ← hexValue, front,
        List.foldl_cons, List.foldl_nil, nibble_digitChar _ (Nat.mod_lt n (by decide))]
      omega

end Numeral

theorem Binary32.mem_toFixed {places : Nat} {x : Binary32} {c : Char} (member : c ∈ (x.toFixed places).toList) :
    c.isDigit = true ∨ c = '-' ∨ c = '.' := by
  simp only [Binary32.toFixed, String.toList_append, List.mem_append] at member
  rcases member with (sign | whole) | places
  · split at sign
    · exact .inr (.inl (by simpa using sign))
    · simp at sign
  · exact .inl (Numeral.isDigit_decimal _ c whole)
  · split at places
    · simp at places
    · simp only [String.toList_append, Numeral.alignRight, String.toList_ofList, List.mem_append] at places
      rcases places with point | fill | digit
      · exact .inr (.inr (by simpa using point))
      · rw [List.eq_of_mem_replicate fill]
        exact .inl (by decide)
      · exact .inl (Numeral.isDigit_decimal _ c digit)

end AirMonitor
