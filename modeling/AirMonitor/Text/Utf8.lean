/-!
Bytes and text. Everything on a wire is a list of bytes, and text is a `String`.
Text can always be written (`encode`). Reading keeps the longest prefix that is
UTF-8 (`longest`) or insists on all of it (`text?`). Both undo writing
(`longest_encode`, `text?_encode`), and what `longest` keeps is a prefix of what
it was given (`encode_longest_front`). A byte below 128 is a character by itself,
so there are as many of it as of the character (`count_encode`).
-/
namespace AirMonitor

/-- What travels over a wire. -/
abbrev Bytes := List UInt8

namespace Utf8

/-- The bytes of a text. -/
def encode (s : String) : Bytes := s.toList.flatMap String.utf8EncodeChar

/-- The character that the bytes begin with; no character has more than four bytes. -/
def first? (bs : Bytes) : Option Char := (bs.take 4).toByteArray.utf8DecodeChar? 0

/-- The characters that follow the last `owed` bytes of the one before, up to
    the first byte that begins no character. -/
def charsAfter : Nat → Bytes → List Char
  | _, [] => []
  | owed + 1, _ :: bs => charsAfter owed bs
  | 0, b :: bs =>
    match first? (b :: bs) with
    | some c => c :: charsAfter (c.utf8Size - 1) bs
    | none => []

/-- The text of the longest prefix that is UTF-8. -/
def longest (bs : Bytes) : String := String.ofList (charsAfter 0 bs)

/-- The text of the bytes, if all of them are UTF-8. -/
def text? (bs : Bytes) : Option String :=
  if (encode (longest bs)).length = bs.length then some (longest bs) else none

/-! ### Reading back -/

theorem encode_ofList (cs : List Char) : encode (String.ofList cs) = cs.flatMap String.utf8EncodeChar := by
  simp [encode]

theorem encode_append (s t : String) : encode (s ++ t) = encode s ++ encode t := by
  simp [encode]

theorem charsAfter_drop (owed : Nat) (bs : Bytes) : charsAfter owed bs = charsAfter 0 (bs.drop owed) := by
  induction bs generalizing owed with
  | nil => simp [charsAfter]
  | cons b bs ih => cases owed with
    | zero => rfl
    | succ owed => simpa [charsAfter] using ih owed

theorem encode_join (pieces : List String) : encode (String.join pieces) = pieces.flatMap encode := by
  induction pieces with
  | nil => rfl
  | cons piece pieces ih => rw [String.join_cons, encode_append, ih, List.flatMap_cons]

/-- A character that begins the bytes is there with all of its bytes. -/
theorem eq_append_of_first? {bs : Bytes} {c : Char} (begins : first? bs = some c) :
    bs = String.utf8EncodeChar c ++ bs.drop c.utf8Size := by
  have read := ByteArray.eq_of_utf8DecodeChar?_eq_some begins
  have whole : bs.take 4 = String.utf8EncodeChar c ++ ((bs.take 4).drop c.utf8Size) := by
    have data := congrArg (fun a : ByteArray => a.data.toList) read
    simpa [ByteArray.data_append, ByteArray.data_extract, List.take_of_length_le] using data
  have size := congrArg List.length whole
  simp only [List.length_append, String.length_utf8EncodeChar, List.length_drop] at size
  have small : c.utf8Size ≤ 4 := Char.utf8Size_le_four c
  calc bs = bs.take 4 ++ bs.drop 4 := (List.take_append_drop 4 bs).symm
    _ = String.utf8EncodeChar c ++ ((bs.take 4).drop c.utf8Size ++ bs.drop 4) := by
        rw [← List.append_assoc, ← whole]
    _ = String.utf8EncodeChar c ++ bs.drop c.utf8Size := by
        congr 1
        have fits : c.utf8Size ≤ (bs.take 4).length := by omega
        rw [← List.drop_append_of_le_length fits, List.take_append_drop]

theorem first?_encode (c : Char) (bs : Bytes) : first? (String.utf8EncodeChar c ++ bs) = some c := by
  have small : (String.utf8EncodeChar c).length ≤ 4 := by
    rw [String.length_utf8EncodeChar]; exact Char.utf8Size_le_four c
  have alone : (String.utf8EncodeChar c).toByteArray.utf8DecodeChar? 0 = some c := by
    simpa [List.utf8Encode] using List.utf8DecodeChar?_utf8Encode_singleton (c := c)
  unfold first?
  rw [List.take_append, List.take_of_length_le small, List.toByteArray_append]
  exact ByteArray.utf8DecodeChar?_append_eq_some alone _

theorem charsAfter_encode (c : Char) (bs : Bytes) :
    charsAfter 0 (String.utf8EncodeChar c ++ bs) = c :: charsAfter 0 bs := by
  have size : (String.utf8EncodeChar c).length = c.utf8Size := String.length_utf8EncodeChar c
  have positive : 0 < c.utf8Size := Char.utf8Size_pos c
  cases split : String.utf8EncodeChar c ++ bs with
  | nil => simp [List.append_eq_nil_iff] at split
  | cons b rest =>
    have begins : first? (b :: rest) = some c := by rw [← split]; exact first?_encode c bs
    have tail : rest.drop (c.utf8Size - 1) = bs := by
      have dropped := congrArg (List.drop c.utf8Size) split
      rw [← size, List.drop_left, size] at dropped
      rw [dropped]
      conv => rhs; rw [show c.utf8Size = (c.utf8Size - 1) + 1 from by omega]
      rfl
    simp only [charsAfter, begins]
    rw [charsAfter_drop, tail]

/-- Reading text that was written gives it back. -/
theorem longest_encode (s : String) : longest (encode s) = s := by
  have all : ∀ cs : List Char, charsAfter 0 (cs.flatMap String.utf8EncodeChar) = cs := by
    intro cs
    induction cs with
    | nil => rfl
    | cons c cs ih => rw [List.flatMap_cons, charsAfter_encode, ih]
  simp [longest, encode, all]

theorem text?_encode (s : String) : text? (encode s) = some s := by
  simp [text?, longest_encode]

/-- Reading keeps the front of what it is given. -/
theorem encode_longest_front (bs : Bytes) : encode (longest bs) <+: bs := by
  suffices all : ∀ (n : Nat) (bs : Bytes), bs.length ≤ n →
      (charsAfter 0 bs).flatMap String.utf8EncodeChar <+: bs by
    rw [longest, encode_ofList]; exact all bs.length bs (Nat.le_refl _)
  intro n
  induction n with
  | zero =>
    intro bs short
    rw [List.eq_nil_of_length_eq_zero (Nat.le_zero.mp short)]
    exact List.prefix_rfl
  | succ n ih =>
    intro bs short
    cases bs with
    | nil => exact List.prefix_rfl
    | cons b rest =>
      cases begins : first? (b :: rest) with
      | none => simp [charsAfter, begins]
      | some c =>
        have positive : 0 < c.utf8Size := Char.utf8Size_pos c
        have whole := eq_append_of_first? begins
        have shorter : ((b :: rest).drop c.utf8Size).length ≤ n := by
          simp only [List.length_drop, List.length_cons] at short ⊢; omega
        rw [whole, charsAfter_encode, List.flatMap_cons]
        exact (List.prefix_append_right_inj _).mpr (ih _ shorter)

/-! ### Bytes below 128 -/

theorem utf8EncodeChar_plain {c : Char} (plain : c.toNat < 128) : String.utf8EncodeChar c = [UInt8.ofNat c.toNat] :=
  if_pos (Nat.le_of_lt_succ plain)

/-- A byte below 128 is a character by itself. -/
theorem utf8EncodeChar_ofNat {b : UInt8} (plain : b.toNat < 128) : String.utf8EncodeChar (Char.ofNat b.toNat) = [b] := by
  have char : (Char.ofNat b.toNat).toNat = b.toNat := by
    have valid : b.toNat.isValidChar := .inl (by omega)
    rw [Char.ofNat, dif_pos valid]
    rfl
  rw [utf8EncodeChar_plain (by rwa [char]), char, UInt8.ofNat_toNat]

theorem flatMap_plain {bytes : Bytes} (plain : ∀ b ∈ bytes, b.toNat < 128) :
    (bytes.map fun b => Char.ofNat b.toNat).flatMap String.utf8EncodeChar = bytes := by
  induction bytes with
  | nil => rfl
  | cons b bytes ih =>
    rw [List.map_cons, List.flatMap_cons, utf8EncodeChar_ofNat (plain b List.mem_cons_self),
      ih fun b member => plain b (List.mem_cons_of_mem _ member), List.singleton_append]

theorem utf8EncodeChar_high {c : Char} (long : 128 ≤ c.toNat) : ∀ b ∈ String.utf8EncodeChar c, 128 ≤ b.toNat := by
  have several : ¬ c.val.toNat ≤ 127 := Nat.not_le.mpr long
  have high (n : Nat) (bound : 128 ≤ n % 256) : 128 ≤ (UInt8.ofNat n).toNat := by
    rwa [UInt8.toNat_ofNat']
  rw [String.utf8EncodeChar, if_neg several]
  split
  · simp only [List.forall_mem_cons]
    exact ⟨high _ (by omega), high _ (by omega), nofun⟩
  · split
    · simp only [List.forall_mem_cons]
      exact ⟨high _ (by omega), high _ (by omega), high _ (by omega), nofun⟩
    · simp only [List.forall_mem_cons]
      exact ⟨high _ (by omega), high _ (by omega), high _ (by omega), high _ (by omega), nofun⟩

/-- A byte below 128 stands for its own character and is no part of another. -/
theorem mem_utf8EncodeChar {x c : Char} (plain : x.toNat < 128) :
    UInt8.ofNat x.toNat ∈ String.utf8EncodeChar c ↔ c = x := by
  have value (n : Nat) (small : n < 128) : (UInt8.ofNat n).toNat = n := by
    rw [UInt8.toNat_ofNat']
    omega
  constructor
  · intro member
    by_cases long : 128 ≤ c.toNat
    · have high := utf8EncodeChar_high long _ member
      rw [value _ plain] at high
      omega
    · have short := Nat.lt_of_not_le long
      rw [utf8EncodeChar_plain short, List.mem_singleton] at member
      have same := congrArg UInt8.toNat member
      rw [value _ plain, value _ short] at same
      exact Char.toNat_inj.mp same.symm
  · rintro rfl
    rw [utf8EncodeChar_plain plain]
    exact List.mem_singleton_self _

theorem count_encode {x : Char} (plain : x.toNat < 128) (s : String) :
    (encode s).count (UInt8.ofNat x.toNat) = s.toList.count x := by
  have one (c : Char) : (String.utf8EncodeChar c).count (UInt8.ofNat x.toNat) = [c].count x := by
    by_cases same : c = x
    · rw [same, utf8EncodeChar_plain plain, List.count_singleton_self, List.count_singleton_self]
    · rw [List.count_eq_zero_of_not_mem (mt (mem_utf8EncodeChar plain).mp same),
        List.count_eq_zero_of_not_mem (mt List.mem_singleton.mp (Ne.symm same))]
  rw [encode]
  induction s.toList with
  | nil => rfl
  | cons c cs ih => rw [List.flatMap_cons, List.count_append, one, ih, ← List.count_append, List.singleton_append]

end Utf8
end AirMonitor
