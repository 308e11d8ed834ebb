import AirMonitor.At.Quoting
import Mathlib.Data.List.DropRight
import Mathlib.Data.Nat.Init

/-!
Separators and quotes. A list of bytes either hides a separator, then it is its only
part, or it falls apart at the first one that stands outside quotes, and what comes
behind is split as if the scan began there (`splitUnquoted_cases`). Parts that hide the
separator and balance their quotes come out of a split as they were joined
(`splitUnquoted_intercalate`). Blanks at both ends do not matter for any of this.
-/
namespace AirMonitor.At

/-- A separator stands nowhere outside quotes, if a scan begins in a given place. -/
def Hides (separator : UInt8) : Quoting → Bytes → Prop
  | _, [] => True
  | q, b :: bs => ¬ (q = .outside ∧ b = separator) ∧ Hides separator (q.step b) bs

instance decidableHides (separator : UInt8) : (q : Quoting) → (bs : Bytes) → Decidable (Hides separator q bs)
  | _, [] => isTrue trivial
  | q, b :: bs =>
    have := decidableHides separator (q.step b) bs
    inferInstanceAs (Decidable (_ ∧ _))

namespace Quoting

@[simp] theorem scan_nil (q : Quoting) : scan q [] = q := rfl

@[simp] theorem scan_cons (q : Quoting) (b : UInt8) (bs : Bytes) : scan q (b :: bs) = scan (q.step b) bs := rfl

/-- Only a quote leads from outside to inside. -/
theorem step_outside {b : UInt8} (other : b ≠ ascii '"') : step .outside b = .outside := by
  simp [step, other]

end Quoting

section
variable {separator other : UInt8} {q : Quoting} {bs part rest : Bytes}

theorem hides_append : Hides separator q (part ++ rest) ↔ Hides separator q part ∧ Hides separator (q.scan part) rest := by
  induction part generalizing q with
  | nil => simp [Hides]
  | cons b part ih => simp [Hides, ih, and_assoc]

theorem balanced_append (balanced : Balanced part) : Balanced (part ++ rest) ↔ Balanced rest := by
  unfold Balanced at *
  rw [Quoting.scan_append, balanced]

theorem balanced_cons (unlike : separator ≠ ascii '"') : Balanced (separator :: rest) ↔ Balanced rest := by
  rw [Balanced, Quoting.scan_cons, Quoting.step_outside unlike, Balanced]

/-! ### Splitting -/

theorem splitUnquoted_of_hides (hidden : Hides separator q bs) : splitUnquoted separator q bs = [bs] := by
  induction bs generalizing q with
  | nil => rfl
  | cons b bs ih =>
    obtain ⟨stays, tail⟩ := hidden
    rw [splitUnquoted, if_neg stays, ih tail]

/-- A split begins anew behind a separator. -/
theorem splitUnquoted_append (hidden : Hides separator q part) (ends : q.scan part = .outside) :
    splitUnquoted separator q (part ++ separator :: rest) = part :: splitUnquoted separator .outside rest := by
  induction part generalizing q with
  | nil =>
    rw [Quoting.scan_nil] at ends
    simp [splitUnquoted, ends]
  | cons b part ih =>
    obtain ⟨stays, tail⟩ := hidden
    rw [List.cons_append, splitUnquoted, if_neg stays, ih tail ends]

/-- There is no separator outside quotes, or there is a first one. -/
theorem splitUnquoted_cases (separator : UInt8) (q : Quoting) (bs : Bytes) :
    Hides separator q bs ∨
      ∃ part rest, bs = part ++ separator :: rest ∧ Hides separator q part ∧ q.scan part = .outside := by
  induction bs generalizing q with
  | nil => exact .inl trivial
  | cons b bs ih =>
    by_cases here : q = .outside ∧ b = separator
    · obtain ⟨rfl, rfl⟩ := here
      exact .inr ⟨[], bs, rfl, trivial, rfl⟩
    · rcases ih (q.step b) with hidden | ⟨part, rest, rfl, hidden, ends⟩
      · exact .inl ⟨here, hidden⟩
      · exact .inr ⟨b :: part, rest, rfl, ⟨here, hidden⟩, ends⟩

/-- Every separator stands within quotes. -/
theorem hides_iff : Hides separator q bs ↔ ∀ before after, bs = before ++ separator :: after → q.scan before ≠ .outside := by
  constructor
  · rintro hidden before after rfl ends
    obtain ⟨-, stays, -⟩ := hides_append.mp hidden
    exact stays ⟨ends, rfl⟩
  · intro within
    rcases splitUnquoted_cases separator q bs with hidden | ⟨part, rest, whole, -, ends⟩
    · exact hidden
    · exact absurd ends (within part rest whole)

/-- What holds of bytes that hide the separator, and is kept when a part and a separator
    are put in front, holds of all bytes and their parts. -/
theorem splitUnquoted_induction {motive : Bytes → List Bytes → Prop}
    (whole : ∀ bs, Hides separator .outside bs → motive bs [bs])
    (cut : ∀ part rest, Hides separator .outside part → Balanced part →
      motive rest (splitUnquoted separator .outside rest) →
      motive (part ++ separator :: rest) (part :: splitUnquoted separator .outside rest))
    (bs : Bytes) : motive bs (splitUnquoted separator .outside bs) := by
  -- By the length: what is left behind a separator may be shorter by many bytes.
  induction size : bs.length using Nat.strong_induction_on generalizing bs with
  | _ n ih =>
    rcases splitUnquoted_cases separator .outside bs with hidden | ⟨part, rest, rfl, hidden, ends⟩
    · rw [splitUnquoted_of_hides hidden]
      exact whole bs hidden
    · rw [splitUnquoted_append hidden ends]
      refine cut part rest hidden ends (ih rest.length ?_ rest rfl)
      simp only [List.length_append, List.length_cons] at size
      omega

theorem hides_of_mem_split (member : part ∈ splitUnquoted separator .outside bs) : Hides separator .outside part := by
  revert member
  refine splitUnquoted_induction (motive := fun _ parts => part ∈ parts → Hides separator .outside part) ?_ ?_ bs
  · intro bs hidden member
    rwa [List.mem_singleton.mp member]
  · intro first rest hidden _ onward member
    rcases List.mem_cons.mp member with rfl | later
    · exact hidden
    · exact onward later

theorem balanced_of_mem_split (unlike : separator ≠ ascii '"') (balanced : Balanced bs)
    (member : part ∈ splitUnquoted separator .outside bs) : Balanced part := by
  revert balanced member
  refine splitUnquoted_induction (motive := fun bs parts => Balanced bs → part ∈ parts → Balanced part) ?_ ?_ bs
  · intro bs _ balanced member
    rwa [List.mem_singleton.mp member]
  · intro first rest _ ends onward balanced member
    rcases List.mem_cons.mp member with rfl | later
    · exact ends
    · refine onward ?_ later
      rwa [balanced_append ends, balanced_cons unlike] at balanced

/-- A part hides whatever the whole hides. -/
theorem hides_other_of_mem_split (unlike : separator ≠ ascii '"') (hidden : Hides other .outside bs)
    (member : part ∈ splitUnquoted separator .outside bs) : Hides other .outside part := by
  revert hidden member
  refine splitUnquoted_induction (motive := fun bs parts => Hides other .outside bs → part ∈ parts → Hides other .outside part)
    ?_ ?_ bs
  · intro bs _ hidden member
    rwa [List.mem_singleton.mp member]
  · intro first rest _ ends onward hidden member
    obtain ⟨here, behind⟩ := hides_append.mp hidden
    rcases List.mem_cons.mp member with rfl | later
    · exact here
    · refine onward ?_ later
      rw [show Quoting.scan .outside first = .outside from ends, Hides, Quoting.step_outside unlike] at behind
      exact behind.2

theorem subset_of_mem_split (member : part ∈ splitUnquoted separator .outside bs) : part ⊆ bs := by
  revert member
  refine splitUnquoted_induction (motive := fun bs parts => part ∈ parts → part ⊆ bs) ?_ ?_ bs
  · intro bs _ member
    rw [List.mem_singleton.mp member]
    exact List.Subset.refl bs
  · intro first rest _ _ onward member
    rcases List.mem_cons.mp member with rfl | later
    · exact List.subset_append_left _ _
    · exact fun b inside => by simp [onward later inside]

/-! ### Joining -/

variable {parts : List Bytes}

theorem intercalate_cons_cons (separator : UInt8) (part next : Bytes) (parts : List Bytes) :
    [separator].intercalate (part :: next :: parts) = part ++ separator :: [separator].intercalate (next :: parts) := by
  simp [List.intercalate_cons_cons]

theorem splitUnquoted_intercalate (some_part : parts ≠ [])
    (each : ∀ part ∈ parts, Hides separator .outside part ∧ Balanced part) :
    splitUnquoted separator .outside ([separator].intercalate parts) = parts := by
  induction parts with
  | nil => contradiction
  | cons part parts ih =>
    obtain ⟨hidden, balanced⟩ := each part (by simp)
    cases parts with
    | nil => rw [List.intercalate_singleton, splitUnquoted_of_hides hidden]
    | cons next parts =>
      rw [intercalate_cons_cons, splitUnquoted_append hidden balanced,
        ih (by simp) (fun p member => each p (List.mem_cons_of_mem _ member))]

theorem balanced_intercalate (unlike : separator ≠ ascii '"') (each : ∀ part ∈ parts, Balanced part) :
    Balanced ([separator].intercalate parts) := by
  induction parts with
  | nil => rfl
  | cons part parts ih =>
    have balanced := each part (by simp)
    cases parts with
    | nil => rwa [List.intercalate_singleton]
    | cons next parts =>
      rw [intercalate_cons_cons, balanced_append balanced, balanced_cons unlike]
      exact ih (fun p member => each p (List.mem_cons_of_mem _ member))

theorem hides_intercalate (unlike : separator ≠ ascii '"') (differ : separator ≠ other)
    (each : ∀ part ∈ parts, Hides other .outside part ∧ Balanced part) :
    Hides other .outside ([separator].intercalate parts) := by
  induction parts with
  | nil => trivial
  | cons part parts ih =>
    obtain ⟨hidden, balanced⟩ := each part (by simp)
    cases parts with
    | nil => rwa [List.intercalate_singleton]
    | cons next parts =>
      rw [intercalate_cons_cons, hides_append]
      refine ⟨hidden, ?_⟩
      rw [show Quoting.scan .outside part = .outside from balanced, Hides, Quoting.step_outside unlike]
      refine ⟨fun same => differ same.2, ?_⟩
      exact ih (fun p member => each p (List.mem_cons_of_mem _ member))

theorem mem_intercalate {b : UInt8} (member : b ∈ [separator].intercalate parts) :
    b = separator ∨ ∃ part ∈ parts, b ∈ part := by
  induction parts with
  | nil => simp at member
  | cons part parts ih =>
    cases parts with
    | nil =>
      rw [List.intercalate_singleton] at member
      exact .inr ⟨part, by simp, member⟩
    | cons next parts =>
      rw [intercalate_cons_cons] at member
      rcases List.mem_append.mp member with here | later
      · exact .inr ⟨part, by simp, here⟩
      · rcases List.mem_cons.mp later with same | later
        · exact .inl same
        · rcases ih later with same | ⟨other, among, within⟩
          · exact .inl same
          · exact .inr ⟨other, List.mem_cons_of_mem _ among, within⟩

/-! ### Blanks -/

/-- No blank stands at either end. -/
def Tight (bs : Bytes) : Prop := (∀ b ∈ bs.head?, isBlank b = false) ∧ ∀ b ∈ bs.getLast?, isBlank b = false

instance (bs : Bytes) : Decidable (Tight bs) := inferInstanceAs (Decidable (_ ∧ _))

theorem trim_of_tight (tight : Tight bs) : trim bs = bs := by
  have front : ∀ {l : Bytes}, (∀ b ∈ l.head?, isBlank b = false) → l.dropWhile isBlank = l := by
    intro l sharp
    cases l with
    | nil => rfl
    | cons b l => simp [sharp b (by simp)]
  have back : ∀ b ∈ bs.reverse.head?, isBlank b = false := by
    rw [List.head?_reverse]
    exact tight.2
  rw [trim, front tight.1, front back, List.reverse_reverse]

theorem tight_trim (bs : Bytes) : Tight (trim bs) := by
  set front := bs.dropWhile isBlank
  have start : trim bs <+: front := List.rdropWhile_prefix isBlank front
  constructor
  · intro b first
    obtain ⟨rest, whole⟩ := start
    have first : front.head? = some b := by
      rw [← whole, List.head?_append]
      simp [Option.mem_def.mp first]
    have sharp := List.head?_dropWhile_not isBlank bs
    rw [first] at sharp
    simpa using sharp
  · intro b final
    obtain ⟨some_byte, rfl⟩ := List.mem_getLast?_eq_getLast final
    exact Bool.eq_false_iff.mpr (List.rdropWhile_last_not isBlank front some_byte)

/-- The blanks that are left out. -/
theorem exists_trim (bs : Bytes) :
    ∃ left right, bs = left ++ (trim bs ++ right) ∧ (∀ b ∈ left, isBlank b = true) ∧ ∀ b ∈ right, isBlank b = true := by
  refine ⟨bs.takeWhile isBlank, (bs.dropWhile isBlank).rtakeWhile isBlank, ?_, ?_, ?_⟩
  · rw [List.rtakeWhile, trim, ← List.reverse_append, List.takeWhile_append_dropWhile, List.reverse_reverse,
      List.takeWhile_append_dropWhile]
  · exact fun b member => List.mem_takeWhile_imp member
  · exact fun b member => List.mem_rtakeWhile_imp member

theorem trim_subset (bs : Bytes) : trim bs ⊆ bs := by
  obtain ⟨left, right, whole, -⟩ := exists_trim bs
  intro b inside
  rw [whole]
  simp [inside]

theorem trim_ne_nil {b : UInt8} (member : b ∈ bs) (sharp : isBlank b = false) : trim bs ≠ [] := by
  intro empty
  obtain ⟨left, right, whole, before, behind⟩ := exists_trim bs
  rw [whole, empty, List.nil_append] at member
  rcases List.mem_append.mp member with inside | inside
  · exact absurd (before b inside) (by simp [sharp])
  · exact absurd (behind b inside) (by simp [sharp])

/-- Blanks neither open nor close. -/
theorem scan_blanks (blank : ∀ b ∈ bs, isBlank b = true) : q.scan bs = .outside ↔ q = .outside := by
  induction bs generalizing q with
  | nil => rfl
  | cons b bs ih =>
    have unlike : b ≠ ascii '"' := by
      rintro rfl
      exact absurd (blank (ascii '"') (by simp)) (by decide)
    rw [Quoting.scan_cons, ih (fun b later => blank b (List.mem_cons_of_mem _ later))]
    cases q with
    | outside => simp [Quoting.step_outside unlike]
    | inside => by_cases escapes : b = ascii '\\' <;> simp [Quoting.step, unlike, escapes]
    | escaped => simp [Quoting.step]

theorem balanced_trim (balanced : Balanced bs) : Balanced (trim bs) := by
  obtain ⟨left, right, whole, before, behind⟩ := exists_trim bs
  rw [whole, balanced_append ((scan_blanks before).mpr rfl), Balanced, Quoting.scan_append] at balanced
  exact (scan_blanks behind).mp balanced

theorem hides_trim (hidden : Hides separator .outside bs) : Hides separator .outside (trim bs) := by
  obtain ⟨left, right, whole, before, -⟩ := exists_trim bs
  rw [whole, hides_append, (scan_blanks before).mpr rfl] at hidden
  exact (hides_append.mp hidden.2).1

end

end AirMonitor.At
