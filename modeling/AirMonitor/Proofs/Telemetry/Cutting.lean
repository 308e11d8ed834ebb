import AirMonitor.Proofs.Text.Fronts
import AirMonitor.Telemetry.Frame

/-!
What is left of a frame that does not fit. A page holds the longest front of all that was
written on it, and it is marked just if that is not all of it (`Page.Shows`). One piece keeps
this and so do any number of them, so where the pieces begin and end does not show, and a frame
is cut only at its end and never without notice (`Frame.renderInto_keeps`).
-/
namespace AirMonitor
open Utf8

theorem Utf8.utf8ByteSize_eq (s : String) : s.utf8ByteSize = (encode s).length := by
  have bytes : s.toByteArray = (encode s).toByteArray := String.utf8Encode_toList.symm
  rw [← String.size_toByteArray, bytes, List.size_toByteArray]

/-! ### Longer texts -/

section
variable {room : Nat} {text front : String}

theorem longestFront_self (fits : (encode text).length ≤ room) : LongestFront room text text :=
  ⟨List.prefix_rfl, fits, fun _ begins _ => begins⟩

/-- What follows a text that has no room makes no difference. -/
theorem LongestFront.followed (kept : LongestFront room text front) (long : room < (encode text).length)
    (rest : String) : LongestFront room (text ++ rest) front where
  begins := by
    rw [String.toList_append]
    exact kept.begins.trans (List.prefix_append _ _)
  fits := kept.fits
  longest other begins fits := by
    refine kept.longest other ?_ fits
    rw [String.toList_append] at begins
    rcases List.prefix_or_prefix_of_prefix begins (List.prefix_append text.toList rest.toList) with within | beyond
    · exact within
    · have covers := (encode_front beyond).length_le
      omega

/-- A text that goes ahead takes its own room. -/
theorem LongestFront.behind (kept : LongestFront room text front) (before : String) :
    LongestFront ((encode before).length + room) (before ++ text) (before ++ front) where
  begins := by
    rw [String.toList_append, String.toList_append]
    exact (List.prefix_append_right_inj _).mpr kept.begins
  fits := by
    rw [encode_append, List.length_append]
    exact Nat.add_le_add_left kept.fits _
  longest other begins fits := by
    rw [String.toList_append] at begins ⊢
    rcases List.prefix_or_prefix_of_prefix begins (List.prefix_append before.toList text.toList) with within | beyond
    · exact within.trans (List.prefix_append _ _)
    · obtain ⟨rest, split⟩ := beyond
      have other_eq : other = before ++ String.ofList rest := String.toList_injective (by simp [split])
      rw [← split] at begins ⊢
      rw [other_eq, encode_append, List.length_append] at fits
      have rest_begins : (String.ofList rest).toList <+: text.toList := by
        rw [String.toList_ofList]
        exact (List.prefix_append_right_inj _).mp begins
      have rest_kept := kept.longest _ rest_begins (Nat.le_of_add_le_add_left fits)
      rw [String.toList_ofList] at rest_kept
      exact (List.prefix_append_right_inj _).mpr rest_kept

/-- Character by character the longest front is found. -/
theorem longestFront_fitting (room : Nat) (cs : List Char) :
    LongestFront room (String.ofList cs) (String.ofList (fitting room cs)) := by
  induction cs generalizing room with
  | nil => exact longestFront_self (Nat.zero_le room)
  | cons c cs ih =>
    have split : String.ofList (c :: cs) = "".push c ++ String.ofList cs := String.toList_injective (by simp)
    have size : (encode ("".push c)).length = c.utf8Size := by
      rw [encode_push, List.length_append, String.length_utf8EncodeChar]
      exact Nat.zero_add _
    rw [fitting]
    by_cases fits : c.utf8Size ≤ room
    · have more := (ih (room - c.utf8Size)).behind ("".push c)
      have front : String.ofList (c :: fitting (room - c.utf8Size) cs) =
          "".push c ++ String.ofList (fitting (room - c.utf8Size) cs) := String.toList_injective (by simp)
      rw [size, Nat.add_sub_cancel' fits] at more
      rwa [if_pos fits, split, front]
    · rw [if_neg fits, split]
      exact longestFront_push (Nat.zero_le room) (by rw [show (encode "").length = 0 from rfl]; omega)

end

/-! ### Pages -/

namespace Page
variable {capacity : Nat} {text : String} {p q : Page}

/-- A page of some capacity on which a text was written. -/
structure Shows (capacity : Nat) (text : String) (p : Page) : Prop where
  front : LongestFront capacity text p.text
  cut : p.cut = true ↔ capacity < (encode text).length

theorem shows_blank (capacity : Nat) : blank.Shows capacity "" :=
  ⟨longestFront_self (Nat.zero_le capacity), iff_of_false Bool.false_ne_true (Nat.not_lt_zero capacity)⟩

/-- An uncut page holds all of its text. -/
theorem Shows.text_eq (shows : p.Shows capacity text) (uncut : p.cut = false) : p.text = text := by
  have fits : (encode text).length ≤ capacity := by
    rw [← Nat.not_lt, ← shows.cut, uncut]
    exact Bool.false_ne_true
  exact shows.front.unique (longestFront_self fits)

theorem Shows.unique (shows : p.Shows capacity text) (shows' : q.Shows capacity text) : p = q := by
  have same_text := shows.front.unique shows'.front
  have same_cut : p.cut = q.cut := Bool.eq_iff_iff.mpr (shows.cut.trans shows'.cut.symm)
  cases p
  cases q
  exact Page.mk.injEq .. ▸ ⟨same_text, same_cut⟩

theorem Shows.write (shows : p.Shows capacity text) (piece : String) :
    (p.write capacity piece).Shows capacity (text ++ piece) := by
  have both : (encode (text ++ piece)).length = (encode text).length + (encode piece).length := by
    rw [encode_append, List.length_append]
  unfold Page.write
  by_cases cut : p.cut = true
  · rw [if_pos cut]
    have long := shows.cut.mp cut
    exact ⟨shows.front.followed long piece, iff_of_true cut (by omega)⟩
  · have all : p.text = text := shows.text_eq (Bool.eq_false_iff.mpr cut)
    have short := mt shows.cut.mpr cut
    rw [if_neg cut, all, utf8ByteSize_eq, utf8ByteSize_eq]
    by_cases fits : (encode text).length + (encode piece).length ≤ capacity
    · rw [if_pos fits]
      exact ⟨longestFront_self (by omega), iff_of_false Bool.false_ne_true (by omega)⟩
    · rw [if_neg fits]
      refine ⟨?_, iff_of_true rfl (by omega)⟩
      have more := (longestFront_fitting (capacity - (encode text).length) piece.toList).behind text
      rwa [Nat.add_sub_cancel' (Nat.not_lt.mp short), String.ofList_toList] at more

theorem Shows.writeAll (shows : p.Shows capacity text) (pieces : List String) :
    (pieces.foldl (Page.write capacity) p).Shows capacity (text ++ String.join pieces) := by
  induction pieces generalizing p text with
  | nil => rwa [String.join_nil, String.append_empty]
  | cons piece pieces ih =>
    rw [String.join_cons, ← String.append_assoc]
    exact ih (shows.write piece)

theorem shows_ofPieces (capacity : Nat) (pieces : List String) :
    (ofPieces capacity pieces).Shows capacity (String.join pieces) := by
  have shows := (shows_blank capacity).writeAll pieces
  rwa [String.empty_append] at shows

end Page

/-! ### Frames -/

namespace Frame

/-- The text of a frame in full. -/
def text (f : Frame) : String := String.join f.pieces

/-- A frame is rendered to all of its text or not at all. -/
theorem text_of_render {f : Frame} {text : String} (rendered : f.render = .ok text) : text = f.text := by
  unfold render at rendered
  by_cases cut : (f.page textRoom).cut = true
  · cases (if_pos cut).symm.trans rendered
  · have shows : (f.page textRoom).Shows textRoom f.text := Page.shows_ofPieces textRoom f.pieces
    rw [← shows.text_eq (Bool.eq_false_iff.mpr cut)]
    exact (Except.ok.inj ((if_neg cut).symm.trans rendered)).symm

/-- A frame is written in full just if there is room for all of it. Of one that has no room, the
    longest front of its text is kept, and the capacity is reported. Neither the text that was
    held before nor the pieces in which the text of the frame comes make a difference. -/
theorem renderInto_keeps (capacity : Nat) (f : Frame) (held : String) :
    let out := f.renderInto capacity held
    (out.1 = .ok () ↔ (encode f.text).length ≤ capacity) ∧
    ((encode f.text).length ≤ capacity → out.2 = f.text) ∧
    (capacity < (encode f.text).length →
      out.1 = .error (.truncated capacity) ∧ LongestFront capacity f.text out.2) ∧
    (∀ other, f.renderInto capacity other = out) ∧
    ∀ pieces, String.join pieces = f.text →
      pieces.foldl (Page.write capacity) (Page.mk held false).wipe =
        ⟨out.2, decide (capacity < (encode f.text).length)⟩ := by
  intro out
  have shows : (f.page capacity).Shows capacity f.text := Page.shows_ofPieces capacity f.pieces
  have result : out.1 = if (f.page capacity).cut then .error (.truncated capacity) else .ok () := rfl
  have kept : out.2 = (f.page capacity).text := rfl
  refine ⟨?_, ?_, ?_, fun _ => rfl, ?_⟩
  · rw [result, ← Nat.not_lt, ← shows.cut]
    cases (f.page capacity).cut <;> simp
  · intro fits
    have uncut := mt shows.cut.mp (Nat.not_lt.mpr fits)
    rw [kept, shows.text_eq (Bool.eq_false_iff.mpr uncut)]
  · intro long
    rw [result, if_pos (shows.cut.mpr long), kept]
    exact ⟨rfl, shows.front⟩
  · intro pieces same
    have other : (Page.ofPieces capacity pieces).Shows capacity f.text := same ▸ Page.shows_ofPieces capacity pieces
    have cut : (f.page capacity).cut = decide (capacity < (encode f.text).length) := by
      rw [Bool.eq_iff_iff, shows.cut, decide_eq_true_iff]
    rw [kept, ← cut]
    exact other.unique shows

/-- A frame whose name has a character of two bytes, which the room of twelve bytes ends in. -/
def straddling : Frame := { readings := [{ name := "é", value := ⟨0x41ac0000⟩, unit := "C" }], time := .boot }

theorem renderInto_keeps_straddling :
    let out := straddling.renderInto 12 "held"
    out = (.error (.truncated 12), "\x7b\"data\": \x7b\"") ∧ LongestFront 12 straddling.text out.2 ∧
      [straddling.text, ""].foldl (Page.write 12) (Page.mk "held" false).wipe = ⟨out.2, true⟩ := by
  intro out
  obtain ⟨-, -, cut, -, pieces⟩ := renderInto_keeps 12 straddling "held"
  have long : 12 < (encode straddling.text).length := by decide +kernel
  have shown : out = (.error (.truncated 12), "\x7b\"data\": \x7b\"") := by decide +kernel
  refine ⟨shown, (cut long).2, ?_⟩
  rw [pieces [straddling.text, ""] (by simp), decide_eq_true long]

end Frame
end AirMonitor
