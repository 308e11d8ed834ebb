import AirMonitor.Text.Utf8
import Mathlib.Data.List.Infix

/-!
Texts at the front of bytes. Of the texts that fit into some room at the front of another
one, the longest begins with every other (`LongestFront`). Bytes that are cut at the end of
the room read as that text, and are all of it unless a character stands across the end
(`encode_longest_take_iff`).
-/
namespace AirMonitor

namespace Utf8
variable {s : String} {bs : Bytes}

theorem charsAfter_text (s : String) (rest : Bytes) : charsAfter 0 (encode s ++ rest) = s.toList ++ charsAfter 0 rest := by
  rw [encode]
  induction s.toList with
  | nil => rfl
  | cons c cs ih => rw [List.flatMap_cons, List.append_assoc, charsAfter_encode, ih, List.cons_append]

theorem toList_longest (begins : encode s <+: bs) : s.toList <+: (longest bs).toList := by
  obtain ⟨rest, rfl⟩ := begins
  rw [longest, charsAfter_text, String.toList_ofList]
  exact List.prefix_append _ _

theorem encode_front {t : String} (front : s.toList <+: t.toList) : encode s <+: encode t := by
  obtain ⟨rest, whole⟩ := front
  rw [encode, encode, ← whole, List.flatMap_append]
  exact List.prefix_append _ _

/-- Every text that the bytes begin with begins the longest one. -/
theorem encode_longest_of_front (begins : encode s <+: bs) : encode s <+: encode (longest bs) :=
  encode_front (toList_longest begins)

theorem encode_push (s : String) (c : Char) : encode (s.push c) = encode s ++ String.utf8EncodeChar c := by
  simp [encode]

/-- Two texts at the front of the same bytes, one of them with a character more: the other
    has all of that character or none of it. -/
theorem encode_between {t : String} {c : Char} (first : encode s <+: bs)
    (second : encode t ++ String.utf8EncodeChar c <+: bs) :
    (encode s).length ≤ (encode t).length ∨ (encode t).length + c.utf8Size ≤ (encode s).length := by
  rw [← encode_push] at second
  rcases List.prefix_or_prefix_of_prefix (toList_longest first) (toList_longest second) with shorter | longer
  · rw [String.toList_push, List.prefix_concat_iff, ← String.toList_push] at shorter
    rcases shorter with same | shorter
    · right
      rw [String.toList_injective same, encode_push, List.length_append, String.length_utf8EncodeChar]
    · exact .inl (encode_front shorter).length_le
  · right
    have covers := (encode_front longer).length_le
    rwa [encode_push, List.length_append, String.length_utf8EncodeChar] at covers

end Utf8

open Utf8

/-! ### The longest front -/

/-- The longest text in some room that another one begins with. -/
structure LongestFront (room : Nat) (text front : String) : Prop where
  begins : front.toList <+: text.toList
  fits : (encode front).length ≤ room
  longest : ∀ other : String, other.toList <+: text.toList → (encode other).length ≤ room →
    other.toList <+: front.toList

/-- A character of the text begins before the end of the room and ends behind it. -/
def Straddles (room : Nat) (text : String) : Prop :=
  ∃ (before : String) (c : Char) (after : String), text = before.push c ++ after ∧
    (encode before).length < room ∧ room < (encode before).length + c.utf8Size

variable {room : Nat} {text front : String}

theorem LongestFront.unique {other : String} (longest : LongestFront room text front)
    (longest' : LongestFront room text other) : front = other :=
  String.toList_injective
    ((longest'.longest front longest.begins longest.fits).eq_of_length_le
      (longest.longest other longest'.begins longest'.fits).length_le)

theorem longestFront_longest (room : Nat) (text : String) :
    LongestFront room text (longest ((encode text).take room)) where
  begins := by
    have cut := (encode_longest_front ((encode text).take room)).trans (List.take_prefix room _)
    have front := toList_longest cut
    rwa [longest_encode] at front
  fits := by
    have within := (encode_longest_front ((encode text).take room)).length_le
    have short := List.length_take_le room (encode text)
    omega
  longest other begins fits := by
    refine toList_longest ?_
    rw [List.prefix_take_iff]
    exact ⟨encode_front begins, fits⟩

/-- A front that the next character makes too long is the longest one. -/
theorem longestFront_push {c : Char} {after : String} (fits : (encode front).length ≤ room)
    (ends : room < (encode front).length + c.utf8Size) : LongestFront room (front.push c ++ after) front where
  begins := by simp
  fits := fits
  longest other begins within := by
    have whole : encode front ++ String.utf8EncodeChar c <+: encode (front.push c ++ after) := by
      rw [encode_append, encode_push]
      exact List.prefix_append _ _
    have shorter : (encode other).length ≤ (encode front).length := by
      have := encode_between (encode_front begins) whole
      omega
    have front_of : encode other <+: encode front :=
      List.prefix_of_prefix_length_le (encode_front begins) ((List.prefix_append _ _).trans whole) shorter
    have texts := toList_longest front_of
    rwa [longest_encode] at texts

/-- The character behind the longest front is too long for the room. -/
theorem LongestFront.next (kept : LongestFront room text front) (part : front ≠ text) :
    ∃ c after, text = front.push c ++ after ∧ room < (encode front).length + c.utf8Size := by
  obtain ⟨rest, split⟩ := kept.begins
  cases rest with
  | nil =>
    rw [List.append_nil] at split
    exact absurd (String.toList_injective split) part
  | cons c rest =>
    refine ⟨c, String.ofList rest, String.toList_injective (by simp [← split]), ?_⟩
    by_contra room_left
    have more : (front.push c).toList <+: text.toList := ⟨rest, by simp [← split]⟩
    have fits : (encode (front.push c)).length ≤ room := by
      rw [encode_push, List.length_append, String.length_utf8EncodeChar]
      omega
    have shorter := (kept.longest (front.push c) more fits).length_le
    rw [String.toList_push, List.length_append, List.length_singleton] at shorter
    omega

/-- Bytes that are cut at the end of the room are all of the longest text in it, unless a
    character stands across the end. -/
theorem encode_longest_take_iff (room : Nat) (text : String) :
    (encode (longest ((encode text).take room))).length = ((encode text).take room).length ↔ ¬ Straddles room text := by
  have kept := longestFront_longest room text
  have within := (encode_longest_front ((encode text).take room)).length_le
  generalize longest ((encode text).take room) = front at kept within ⊢
  rw [List.length_take] at within ⊢
  constructor
  · rintro same ⟨before, c, after, rfl, starts, ends⟩
    have begins : encode before ++ String.utf8EncodeChar c <+: encode (before.push c ++ after) := by
      rw [encode_append, encode_push]
      exact List.prefix_append _ _
    have long := begins.length_le
    rw [List.length_append, String.length_utf8EncodeChar] at long
    have fits := kept.fits
    rcases encode_between (encode_front kept.begins) begins with none_of_it | all_of_it
    · omega
    · omega
  · intro whole
    by_cases all : front = text
    · have fits := kept.fits
      rw [all] at fits ⊢
      omega
    · obtain ⟨c, after, split, ends⟩ := kept.next all
      have full : ¬ (encode front).length < room := fun starts => whole ⟨front, c, after, split, starts, ends⟩
      omega

/-- No character stands across the end if one ends there. -/
theorem not_straddles_append (full : (encode front).length = room) (rest : String) : ¬ Straddles room (front ++ rest) := by
  rw [← encode_longest_take_iff, encode_append, ← full, List.take_left, longest_encode]

end AirMonitor
