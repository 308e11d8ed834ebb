import AirMonitor.Text.Utf8

/-!
Text written piece by piece into a limited space. A line (`line`) is cut at its
last byte without notice. A page (`Page`) is cut at the end of a character, notes
that it was, and takes nothing more. Where the pieces begin and end does not show
in a line (`line_eq_take`).
-/
namespace AirMonitor

/-! ### Lines -/

/-- What `room` bytes hold of the pieces, cut at the last byte. -/
def line (room : Nat) (pieces : List String) : Bytes :=
  pieces.foldl (fun kept piece => kept ++ (Utf8.encode piece).take (room - kept.length)) []

theorem line_eq_take (room : Nat) (pieces : List String) :
    line room pieces = (pieces.flatMap Utf8.encode).take room := by
  suffices all : ∀ kept : Bytes, kept.length ≤ room →
      pieces.foldl (fun kept piece => kept ++ (Utf8.encode piece).take (room - kept.length)) kept =
        (kept ++ pieces.flatMap Utf8.encode).take room by
    exact all [] (Nat.zero_le room)
  induction pieces with
  | nil => intro kept short; simp [List.take_of_length_le short]
  | cons piece pieces ih =>
    intro kept short
    rw [List.foldl_cons, ih _ (by simp only [List.length_append, List.length_take]; omega), List.flatMap_cons,
      ← List.append_assoc]
    by_cases fits : (Utf8.encode piece).length ≤ room - kept.length
    · rw [List.take_of_length_le fits]
    · have full : (kept ++ (Utf8.encode piece).take (room - kept.length)).length = room := by
        simp only [List.length_append, List.length_take]; omega
      rw [List.take_append_of_le_length (Nat.le_of_eq full.symm), List.take_of_length_le (Nat.le_of_eq full),
        List.take_append_of_le_length (by simp only [List.length_append]; omega), List.take_append,
        List.take_of_length_le short]

theorem line_join (room : Nat) (pieces : List String) :
    line room pieces = (Utf8.encode (String.join pieces)).take room := by
  rw [line_eq_take, Utf8.encode_join]

/-! ### Pages -/

/-- The longest prefix that takes at most `room` bytes. -/
def fitting : Nat → List Char → List Char
  | _, [] => []
  | room, c :: cs => if c.utf8Size ≤ room then c :: fitting (room - c.utf8Size) cs else []

/-- Text in a limited space, and whether any of it was cut. -/
structure Page where
  text : String
  cut : Bool
deriving DecidableEq, Repr

namespace Page

def blank : Page := ⟨"", false⟩

/-- The page with all that stood on it wiped off. -/
def wipe (_ : Page) : Page := blank

/-- Writes a piece, or the part of it that `capacity` bytes still hold. A page that was cut stays as it is. -/
def write (capacity : Nat) (page : Page) (piece : String) : Page :=
  if page.cut then page
  else if page.text.utf8ByteSize + piece.utf8ByteSize ≤ capacity then ⟨page.text ++ piece, false⟩
  else ⟨page.text ++ String.ofList (fitting (capacity - page.text.utf8ByteSize) piece.toList), true⟩

/-- A page of `capacity` bytes with the pieces on it. -/
def ofPieces (capacity : Nat) (pieces : List String) : Page := pieces.foldl (write capacity) blank

end Page
end AirMonitor
